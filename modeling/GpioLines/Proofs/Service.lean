import GpioLines.Proofs.Strict

/-!
# What simulated chips serve

A simulated chip finds whatever it looks up, as long as its grants are in order, and it refuses no call
about a file that it has a grant of for a bad number. The library asks only about files that it has
a handle of, which the chip has a grant of at that moment. This holds at every step of an operation,
so it is said of each exchange in turn.
-/

namespace GpioLines

namespace Simulator

variable {sim after : Simulator}

theorem filled_perform {fresh : FileId} {call : Call} {reply : call.Reply}
    (h : sim.perform fresh call = (.ok reply, after)) (hfilled : sim.Filled) : after.Filled := by
  intro grant hgrant
  rw [(grants_perform h).1] at hgrant
  rcases List.mem_append.mp hgrant with hold | hnew
  · exact hfilled grant hold
  · cases call with
    | requestLines request =>
        obtain rfl := List.mem_singleton.mp hnew
        intro hnil
        have hrefused : sim.requestLines fresh request = .error .invalid := by
          simp only [show request.offsets = [] from hnil, requestLines, List.isEmpty_nil,
            Bool.true_or, if_true]
        rw [(settle_eq_ok.mp h).2] at hrefused
        cases hrefused
    | requestEvent request =>
        obtain rfl := List.mem_singleton.mp hnew
        exact List.cons_ne_nil _ _
    | _ => cases hnew

theorem filled_release (hfilled : sim.Filled) (file : FileId) : (sim.release file).Filled := by
  rcases sim.release_eq file with ⟨-, heq⟩ | ⟨_, -, -, -, heq⟩
  · rwa [heq]
  · rw [heq]
    exact fun grant hgrant => hfilled grant (List.mem_of_mem_filter hgrant)

theorem checkOffsets_error {before offsets : List Offset} {errno : Errno}
    (h : sim.checkOffsets before offsets = .error errno) : errno = .invalid ∨ errno = .busy := by
  induction offsets generalizing before with
  | nil => cases h
  | cons offset rest ih =>
      unfold checkOffsets at h
      split at h
      · exact Or.inl (Except.error.inj h).symm
      · split at h
        · exact Or.inr (Except.error.inj h).symm
        · exact ih h

theorem valuesGrant_cases {file : FileId} {grant : Grant} (h : sim.grant? file = some grant) :
    sim.valuesGrant file = .error .invalid ∨ sim.valuesGrant file = .ok grant := by
  simp only [valuesGrant, h]
  split
  · exact Or.inl rfl
  · exact Or.inr rfl

/-- The chip does not refuse a call about a file that it has a grant of for a bad number. -/
theorem perform_ne_badFile {call : Call} (fresh : FileId)
    (hfile : ∀ file ∈ call.file?, ∃ grant, sim.grant? file = some grant) :
    (sim.perform fresh call).1 ≠ .error (.call call.kind .badFile) := by
  have hoffsets : ∀ offsets, sim.checkOffsets [] offsets ≠ .error .badFile := by
    intro offsets hcheck
    rcases checkOffsets_error hcheck with heq | heq <;> cases heq
  have hsettle : ∀ (call : Call) (reply : call.Reply) (result : Except Errno Simulator),
      result ≠ .error .badFile →
      (sim.settle reply result).1 ≠ .error (.call call.kind .badFile) := by
    intro call reply result hresult heq
    obtain ⟨errno, herror, hcall, -⟩ := settle_eq_error.mp (Prod.ext heq rfl)
    obtain rfl := (Error.call.inj hcall).2
    exact hresult herror
  cases call with
  | chipInfo => nofun
  | lineInfo offset =>
      simp only [perform, lineInfo]
      repeat' split
      all_goals nofun
  | requestLines request =>
      refine hsettle (.requestLines request) fresh _ ?_
      unfold requestLines
      repeat' split
      · nofun
      · nofun
      · next hcheck => exact fun heq => hoffsets _ (by rw [hcheck, Except.error.inj heq])
      · nofun
  | requestEvent request =>
      refine hsettle (.requestEvent request) fresh _ ?_
      unfold requestEvent
      repeat' split
      · nofun
      · next hcheck => exact fun heq => hoffsets _ (by rw [hcheck, Except.error.inj heq])
      · nofun
  | getValues file buffer =>
      obtain ⟨grant, hgrant⟩ := hfile file rfl
      simp only [perform, getValues, hgrant]
      nofun
  | setValues file values =>
      obtain ⟨grant, hgrant⟩ := hfile file rfl
      refine hsettle (.setValues file values) () _ ?_
      unfold setValues
      rcases valuesGrant_cases hgrant with hinvalid | hvalid
      · rw [hinvalid]
        nofun
      · rw [hvalid]
        simp only
        split <;> nofun
  | setConfig file flags values =>
      obtain ⟨grant, hgrant⟩ := hfile file rfl
      refine hsettle (.setConfig file flags values) () _ ?_
      unfold setConfig
      split
      · nofun
      · rcases valuesGrant_cases hgrant with hinvalid | hvalid
        · rw [hinvalid]
          nofun
        · rw [hvalid]
          nofun

end Simulator

/-! ### Exchange by exchange -/

/-- If the exchange is about a file, then about the file of an open handle of that device. -/
def Exchange.Addressed (handles : Table Handle) : Exchange → Prop
  | .call device asked _ => asked.Addressed device handles
  | .release device file =>
    ∃ id handle, handles.get? id = some handle ∧ handle.device = device ∧ handle.file = file

/-- If the exchange reaches this simulated chip, then the chip knows the file that it is about. -/
def Exchange.Known (index : Nat) (sim : Simulator) : Exchange → Prop
  | .call device asked _ => device.simulator? = some index →
    ∀ fresh, (sim.perform fresh asked).1 ≠ .error (.call asked.kind .badFile)
  | .release device file => device.simulator? = some index → ∃ grant, sim.grant? file = some grant

/-- A replay in which the chip finds whatever it looks up and knows every file. -/
inductive Simulator.Serves (index : Nat) : List Exchange → Simulator → Simulator → Prop
  | nil {sim : Simulator} (whole : sim.Whole) : Serves index [] sim sim
  | cons {exchange : Exchange} {rest : List Exchange} {sim mid after : Simulator}
      (whole : sim.Whole) (known : exchange.Known index sim) (first : exchange.Makes index sim mid)
      (others : Serves index rest mid after) : Serves index (exchange :: rest) sim after

theorem Simulator.Serves.trans {index : Nat} {earlier later : List Exchange}
    {sim mid after : Simulator} (h : Serves index earlier sim mid)
    (hlater : Serves index later mid after) : Serves index (earlier ++ later) sim after := by
  induction h with
  | nil => exact hlater
  | cons hwhole hknown hfirst _ ih => exact .cons hwhole hknown hfirst (ih hlater)

namespace Bench

variable {bench after : Bench}

def Filled (bench : Bench) : Prop :=
  ∀ (index : Nat) (sim : Simulator), bench.simulators[index]? = some sim → sim.Filled

theorem Replayed.filled {exchanges : List Exchange} (h : Replayed exchanges bench after)
    (hfilled : bench.Filled) : after.Filled := by
  intro index changed hchanged
  cases hsim : bench.simulators[index]? with
  | none =>
      rw [h.absent index hsim] at hchanged
      cases hchanged
  | some sim =>
      obtain ⟨found, hfound, hreplays⟩ := h.present index sim hsim
      obtain rfl := Option.mem_unique hchanged hfound
      exact hreplays.keeps (fun _ _ _ _ _ => Simulator.filled_perform)
        (fun _ file hold => Simulator.filled_release hold file) (hfilled index sim hsim)

theorem Beside.filled {driven : Nat → Offset → Prop} (h : bench.Beside driven after)
    (hfilled : bench.Filled) : after.Filled := by
  intro index changed hchanged grant hgrant
  have hmem : grant ∈ after.grants index := mem_grants.mpr ⟨changed, hchanged, hgrant⟩
  rw [h.grants] at hmem
  obtain ⟨sim, hsim, hold⟩ := mem_grants.mp hmem
  exact hfilled index sim hsim grant hold

end Bench

/-! ### Deal by deal -/

namespace World

variable {world after : World (Traced Bench)}

/-- Every simulated chip has served all that has passed since. -/
def Serves (before after : World (Traced Bench)) : Prop :=
  ∃ made, after.trace = before.trace ++ made ∧
    ∀ (index : Nat) (sim : Simulator), before.bench.simulators[index]? = some sim →
      ∃ changed, after.bench.simulators[index]? = some changed ∧
        Simulator.Serves index made sim changed

theorem Serves.trans {last : World (Traced Bench)} (h : world.Serves after)
    (hlater : after.Serves last) : world.Serves last := by
  obtain ⟨earlier, hearlier, hfirst⟩ := h
  obtain ⟨later, hlate, hsecond⟩ := hlater
  refine ⟨earlier ++ later, by rw [hlate, hearlier, List.append_assoc], fun index sim hsim => ?_⟩
  obtain ⟨mid, hmid, hserves⟩ := hfirst index sim hsim
  obtain ⟨changed, hchanged, hmore⟩ := hsecond index mid hmid
  exact ⟨changed, hchanged, hserves.trans hmore⟩

/-- At most one exchange has passed, and the library has the file that it is about. -/
def Passes (before after : World (Traced Bench)) : Prop :=
  ∃ made, after.trace = before.trace ++ made ∧ Bench.Replayed made before.bench after.bench ∧
    (made = [] ∨ ∃ exchange, made = [exchange] ∧ exchange.Addressed before.handles)

theorem passes_of_filesOnly (hfiles : Bench.FilesOnly world.bench after.bench)
    (htrace : after.trace = world.trace) : world.Passes after :=
  ⟨[], by rw [htrace, List.append_nil], Bench.replayed_nil hfiles.simulators, Or.inl rfl⟩

theorem passes_of_machine_eq (h : after.machine = world.machine) : world.Passes after := by
  have hbench : after.bench = world.bench := congrArg Traced.machine h
  refine passes_of_filesOnly ?_ (congrArg Traced.trace h)
  rw [hbench]
  exact ⟨rfl, rfl⟩

theorem passes_perform (h : world.bench.Exclusive) {device : Device} {call : Call}
    {outcome : Outcome call} {mid : World (Traced Bench)}
    (hperform : world.perform device call = (outcome, mid)) (hafter : after.machine = mid.machine)
    (haddressed : call.Addressed device world.handles) : world.Passes after := by
  obtain ⟨bench, hbench, rfl⟩ := perform_bench hperform
  have hsame : after.bench = bench := congrArg Traced.machine hafter
  refine ⟨[.call device call outcome], congrArg Traced.trace hafter, ?_,
    Or.inr ⟨_, rfl, haddressed⟩⟩
  rw [hsame]
  exact h.replayed_perform hbench

theorem passes_closeHandle {id : HandleId} {handle : Handle}
    (hget : world.handles.get? id = some handle) : world.Passes (world.closeHandle id) := by
  rw [closeHandle_eq hget]
  obtain ⟨hpresent, habsent⟩ := Bench.replayed_releaseAt handle.device handle.file world.bench
  exact ⟨[.release handle.device handle.file], rfl, ⟨hpresent, habsent⟩,
    Or.inr ⟨_, rfl, id, handle, hget, rfl, rfl⟩⟩

end World

variable {adds : Prop} {before after : Docket (Traced Bench)} {lent : List (Device × FileId)}

theorem Deal.passes (hdeal : Deal adds before after) (h : before.world.bench.Exclusive) :
    before.world.Passes after.world := by
  cases hdeal with
  | pass hkeeps => exact World.passes_of_machine_eq hkeeps.machine
  | openChip | attach => exact World.passes_of_machine_eq rfl
  | @read world _ file size => exact World.passes_of_filesOnly (world.bench.filesOnly_read file size) rfl
  | @watch world _ file => exact World.passes_of_filesOnly (world.bench.filesOnly_watch file) rfl
  | unwatch => exact World.passes_of_filesOnly ⟨rfl, rfl⟩ rfl
  | ask _ haddressed htold => exact World.passes_perform h htold rfl haddressed
  | learn _ htold | doubt _ htold => exact World.passes_perform h htold rfl trivial
  | take _ _ hgranted | listen _ hgranted => exact World.passes_perform h hgranted rfl trivial
  | drive hfound _ _ hdriven =>
      exact World.passes_perform h hdriven rfl ⟨_, _, hfound, rfl, rfl⟩
  | configure _ hcovers _ _ hconfigured =>
      exact World.passes_perform h hconfigured rfl ⟨_, _, hcovers.found, rfl, rfl⟩
  | close hfound => exact World.passes_closeHandle hfound

/-- The chip has a grant of every file that the library has a handle of. -/
theorem World.Accord.grant? {world : World (Traced Bench)} (h : world.Accord lent) {id : HandleId}
    {handle : Handle} (hget : world.handles.get? id = some handle) {index : Nat}
    (hindex : handle.device.simulator? = some index) : ∃ sim grant,
      world.bench.simulators[index]? = some sim ∧ sim.grant? handle.file = some grant := by
  obtain ⟨grant, hgrant, hfile, -⟩ := h.lending.backed id handle hget index hindex
  obtain ⟨sim, hsim, hmem⟩ := Bench.mem_grants.mp hgrant
  exact ⟨sim, grant, hsim, hfile ▸ (h.bench.simulators index sim hsim).grant?_eq hmem⟩

/-- What the library passes to a chip is known to it. -/
theorem Exchange.Addressed.known {world : World (Traced Bench)} {exchange : Exchange}
    (h : exchange.Addressed world.handles) (haccord : world.Accord lent) {index : Nat}
    {sim : Simulator} (hsim : world.bench.simulators[index]? = some sim) :
    exchange.Known index sim := by
  have hfound : ∀ device file, (∃ id handle, world.handles.get? id = some handle ∧
      handle.device = device ∧ handle.file = file) → device.simulator? = some index →
      ∃ grant, sim.grant? file = some grant := by
    rintro device file ⟨id, handle, hget, rfl, rfl⟩ hindex
    obtain ⟨found, grant, hfound, hgrant⟩ := haccord.grant? hget hindex
    obtain rfl := Option.mem_unique hsim hfound
    exact ⟨grant, hgrant⟩
  cases exchange with
  | call device asked outcome =>
      intro hindex fresh
      refine Simulator.perform_ne_badFile fresh fun file hfile => ?_
      cases asked with
      | getValues | setValues | setConfig =>
          obtain rfl := Option.some.inj hfile
          exact hfound device _ h hindex
      | _ => cases hfile
  | release device file => exact hfound device file h

theorem Deal.serves (hdeal : Deal adds before after) (haccord : before.world.Accord lent)
    (hfilled : before.world.bench.Filled) :
    before.world.Serves after.world ∧ after.world.bench.Filled := by
  obtain ⟨made, htrace, hreplayed, hmade⟩ := hdeal.passes haccord.bench
  have hafter := hreplayed.filled hfilled
  refine ⟨⟨made, htrace, fun index sim hsim => ?_⟩, hafter⟩
  obtain ⟨changed, hchanged, hreplays⟩ := hreplayed.present index sim hsim
  have hwhole : sim.Whole := (haccord.bench.simulators index sim hsim).whole (hfilled index sim hsim)
  have hlast : changed.Whole := ((hdeal.accord haccord).bench.simulators index changed hchanged).whole
    (hafter index changed hchanged)
  refine ⟨changed, hchanged, ?_⟩
  rcases hmade with rfl | ⟨exchange, rfl, haddressed⟩
  · cases hreplays
    exact .nil hwhole
  · cases hreplays with
    | cons hfirst hrest =>
        cases hrest
        exact .cons hwhole (haddressed.known haccord hsim) hfirst (.nil hlast)

theorem Deals.serves (hdeals : Deals adds before after) (haccord : before.world.Accord lent)
    (hfilled : before.world.bench.Filled) : before.world.Serves after.world := by
  suffices h : before.world.Serves after.world ∧ after.world.bench.Filled from h.1
  induction hdeals with
  | refl =>
      refine ⟨⟨[], (List.append_nil _).symm, fun index sim hsim => ⟨sim, hsim, .nil ?_⟩⟩, hfilled⟩
      exact (haccord.bench.simulators index sim hsim).whole (hfilled index sim hsim)
  | tail hbefore hdeal ih =>
      obtain ⟨hserves, hfilled⟩ := hdeal.serves (Deals.accord hbefore haccord) ih.2
      exact ⟨ih.1.trans hserves, hfilled⟩

/-! ### Every state of a workshop -/

namespace Workshop

variable {rule : Workshop → Act → Prop} {workshop : Workshop}

theorem Reachable.filled (h : Reachable rule workshop) : workshop.world.bench.Filled := by
  induction h with
  | start => exact fun index sim hsim => by cases hsim
  | @act workshop act hbefore hcan _ ih =>
      have hsound := hbefore.sound
      cases act with
      | operation operation =>
          obtain ⟨-, made, -, hreplayed⟩ := hsound.follows hcan
          exact hreplayed.filled ih
      | deed deed =>
          rcases worked_work hcan with ⟨hclient, -, hbeside⟩ | ⟨-, hdone⟩ | ⟨-, hdone⟩
          · rw [Workshop.act, world, hclient]
            exact hbeside.filled ih
          · obtain ⟨-, made, -, hreplayed⟩ := World.follows_perform hsound.accord.bench _ _
            rw [Workshop.act, hdone]
            exact hreplayed.filled ih
          · rw [Workshop.act, hdone]
            exact (Bench.replayed_releaseAt ..).filled ih

end Workshop

end GpioLines
