import GpioLines.Proofs.Containment
import GpioLines.Proofs.Lookups

/-!
# Operations on a group depend on its region only

Every operation on a group of a region runs alike in two worlds that mirror each other in the region.
The answer is the same, to the error and to the values read, and the worlds mirror each other again
afterwards, with the handles granted on the way under corresponding numbers. What the two worlds know
and hold outside the region makes no difference.
-/

namespace GpioLines

/-- A line of the region is on a chip of its simulated chip. -/
theorem Region.Lists.device {region : Region} {world : World (Traced Bench)} {line : Line}
    (h : region.Lists world line) {chip : Chip} (hopen : world.openChip line.chip = .ok chip) :
    chip.device = .simulator region.index := by
  have hdevice : world.board.device? line.chip = some chip.device := by
    simp only [World.board, (World.openChip_eq_ok.mp hopen).1, Option.map_some]
  exact Option.some.inj (hdevice.symm.trans h.1)

/-- Only a chip that is opened adds a device. -/
theorem Deal.device? {before after : Docket (Traced Bench)} (hdeal : Deal False before after) :
    after.world.board.device? = before.world.board.device? := by
  cases hdeal with
  | pass hkeeps => exact hkeeps.device
  | openChip hadds => exact hadds.elim
  | read | watch | unwatch => rfl
  | ask _ _ htold => exact congrArg Board.device? (World.board_of_perform htold)
  | learn _ htold | doubt _ htold =>
      exact (World.device?_modifyLine ..).trans (congrArg Board.device? (World.board_of_perform htold))
  | take _ _ htold | listen _ htold | drive _ _ _ htold | configure _ _ _ _ htold =>
      have hboard := World.board_of_perform htold
      exact congrArg Board.device? hboard
  | attach => exact World.device?_modifyLine ..
  | close =>
      exact congrArg Board.device? (World.board_of_chips_eq (World.chips_closeHandle ..))

theorem Deals.device? {before after : Docket (Traced Bench)} (hdeals : Deals False before after) :
    after.world.board.device? = before.world.board.device? := by
  induction hdeals with
  | refl => rfl
  | tail _ hdeal ih => exact hdeal.device?.trans ih

namespace World

theorem handles_detachAll {σ : Type} (world : World σ) (lines : List Line) :
    (world.detachAll lines).2.handles = world.handles := by
  induction lines generalizing world with
  | nil => rfl
  | cons line rest ih => exact ih (world.detach line).2

section Sound

variable {world : World (Traced Bench)} (hsound : Desk.Sound ⟨world, 0⟩)

include hsound

/-- The handles that were detached are still open, and nobody holds them but the operation. -/
theorem sound_detachAll (lines : List Line) :
    Desk.Sound ⟨(world.detachAll lines).2, ((world.detachAll lines).1 : Multiset HandleId)⟩ := by
  have hmoves : Moves { first := 0 } ⟨world, 0⟩ _ := moves_detachAll lines
  rw [Multiset.add_zero] at hmoves
  exact hmoves.sound hsound

theorem sound_acquireEvents (device : Device) (config : RequestConfig) (lines : List Line) :
    Desk.Sound ⟨(world.acquireEvents device config [] lines).2,
      ((world.acquireEvents device config [] lines).1.2 : Multiset HandleId)⟩ := by
  have hmoves : Moves { first := 0, grants := fun _ => True } ⟨world, 0⟩ _ :=
    moves_acquireEvents world device config [] lines fun _ _ => trivial
  exact hmoves.sound hsound

end Sound

namespace Fenced

variable {world : World (Traced Bench)} {region : Region} {lent : List (Device × FileId)}
  {group : Group}

/-- The handles that serve a group of the region are handles of the region. -/
theorem held (h : world.Fenced region lent) (hlines : ∀ line ∈ group.lines, region.Lists world line)
    {held : List (HandleId × Handle)} (hheld : world.handlesOf group = .ok held) :
    ∀ entry ∈ held, world.handles.get? entry.1 = some entry.2 ∧ region.Has entry.2 := by
  intro entry hentry
  obtain ⟨line, hline, hserves⟩ := (exists_of_forall₂ (forall₂_of_handlesOf hheld).2).2 entry hentry
  obtain ⟨hholds, hget⟩ := handle?_eq_some.mp hserves
  obtain ⟨handle, hfound, hhas⟩ := h.has (hlines line hline) hholds
  obtain rfl := Option.mem_unique hget hfound
  exact ⟨hget, hhas⟩

theorem covered (h : world.Fenced region lent)
    (hlines : ∀ line ∈ group.lines, region.Lists world line) {id : HandleId} {handle : Handle}
    (hcovers : world.Covers group id handle) : region.Has handle := by
  have hvalid := h.desk.ledger.valid id handle hcovers.found
  obtain ⟨offset, hoffset⟩ := List.exists_mem_of_length_pos hvalid.pos
  obtain ⟨line, hline, -⟩ := List.mem_map.mp (hcovers.complete offset hoffset)
  obtain ⟨hholds, hget⟩ := handle?_eq_some.mp (hcovers.serves line hline)
  obtain ⟨found, hfound, hhas⟩ := h.has (hlines line hline) hholds
  obtain rfl := Option.mem_unique hget hfound
  exact hhas

end Fenced

namespace Mirrors

variable {region : Region} {numbers : Renumbering} {gap : Int} {a b : World (Traced Bench)}
  {lent : List (Device × FileId)} {group : Group}

theorem alikeFail (h : Mirrors region numbers gap a b) {α : Type} (error : Error) :
    Alike region numbers gap (@World.fail _ α a error) (@World.fail _ α b error) :=
  ⟨rfl, h.fail error error⟩

/-! ### Metadata -/

theorem refresh (h : Mirrors region numbers gap a b) {line : Line} (hline : region.Lists a line) :
    Alike region numbers gap (a.refresh line) (b.refresh line) := by
  unfold World.refresh
  rcases h.openChip line.chip with ⟨error, hone, htwo⟩ | ⟨chip, other, hone, htwo, -⟩
  · rw [hone, htwo]
    exact h.alikeFail error
  · simp only [hone, htwo, hline.device hone, (h.lists_iff.mpr hline).device htwo]
    obtain ⟨outcome, after, later, hafter, hlater, hmirrors⟩ := (h.performLineInfo hline.2).split
    rw [hafter, hlater]
    cases outcome with
    | error error => exact ⟨rfl, hmirrors.modifyLine line fun _ => rfl⟩
    | ok info => exact ⟨rfl, hmirrors.modifyLine line fun _ => rfl⟩

theorem update (h : Mirrors region numbers gap a b) {line : Line} (hline : region.Lists a line) :
    Mirrors region numbers gap (a.update line) (b.update line) := by
  have hrefresh := h.refresh hline
  unfold World.update
  rcases hone : a.refresh line with ⟨outcome, after⟩
  rcases htwo : b.refresh line with ⟨answer, later⟩
  rw [hone, htwo] at hrefresh
  obtain ⟨rfl, hmirrors⟩ := hrefresh
  cases answer with
  | error error => exact hmirrors.note _ _
  | ok _ => exact hmirrors

theorem updateAll (h : Mirrors region numbers gap a b)
    (hlines : ∀ line ∈ group.lines, region.Lists a line) :
    Mirrors region numbers gap (a.updateAll group) (b.updateAll group) := by
  unfold World.updateAll
  generalize group.lines = lines at hlines ⊢
  induction lines generalizing a b with
  | nil => exact h
  | cons line rest ih =>
      refine ih (h.update (hlines line List.mem_cons_self)) fun other hother => ?_
      rw [Region.Lists, board_update]
      exact hlines other (List.mem_cons_of_mem _ hother)

/-! ### Values -/

theorem fetchAll (h : Mirrors region numbers gap a b) (ha : a.Accord lent) (hb : b.Accord lent)
    {held : List (HandleId × Handle)}
    (hheld : ∀ entry ∈ held, a.handles.get? entry.1 = some entry.2 ∧ region.Has entry.2) :
    (b.fetchAll (held.map numbers.held)).1 =
        (a.fetchAll held).1.map (List.map fun entry => (numbers.handle entry.1, entry.2)) ∧
      Mirrors region numbers gap (a.fetchAll held).2 (b.fetchAll (held.map numbers.held)).2 := by
  induction held generalizing a b with
  | nil => exact ⟨rfl, h⟩
  | cons entry rest ih =>
      obtain ⟨hget, hhas⟩ := hheld entry List.mem_cons_self
      obtain ⟨outcome, after, later, hafter, hlater, hmirrors⟩ :=
        (h.performGetValues ha hb hget hhas (List.replicate entry.2.offsets.length 0)).split
      obtain ⟨machine, -, rfl⟩ := perform_eq hafter
      have hrest := ih hmirrors (ha.call hafter) (hb.call hlater) fun other hother =>
        hheld other (List.mem_cons_of_mem _ hother)
      rw [List.map_cons]
      unfold World.fetchAll
      simp only [Renumbering.held, Handle.renumber] at hrest ⊢
      rw [hafter, hlater]
      cases outcome with
      | error error => exact ⟨rfl, hmirrors⟩
      | ok values =>
          simp only
          generalize World.fetchAll { a with machine } rest = one at hrest ⊢
          generalize World.fetchAll later _ = two at hrest ⊢
          obtain ⟨outcome, after⟩ := one
          obtain ⟨answer, later⟩ := two
          obtain ⟨rfl, hfetched⟩ := hrest
          cases outcome with
          | error error => exact ⟨rfl, hfetched⟩
          | ok more => exact ⟨rfl, hfetched⟩

theorem getValues (h : Mirrors region numbers gap a b) (ha : a.Fenced region lent)
    (hb : b.Accord lent) (hlines : ∀ line ∈ group.lines, region.Lists a line) :
    Alike region numbers gap (a.getValues group) (b.getValues group) := by
  unfold World.getValues
  rw [h.handlesOf ha hlines]
  cases hheld : a.handlesOf group with
  | error error => exact h.alikeFail error
  | ok held =>
      have hfetch := h.fetchAll ha.accord hb fun entry hentry =>
        ha.held hlines hheld entry (mem_distinctHandles hentry)
      simp only [Except.map, distinctHandles_map h.handles.injective]
      generalize World.fetchAll a (distinctHandles held) = one at hfetch ⊢
      generalize World.fetchAll b _ = two at hfetch ⊢
      obtain ⟨outcome, after⟩ := one
      obtain ⟨answer, later⟩ := two
      obtain ⟨rfl, hmirrors⟩ := hfetch
      cases outcome with
      | error error => exact ⟨rfl, hmirrors⟩
      | ok fetched =>
          refine ⟨?_, hmirrors⟩
          simp only [Except.map, List.zip_map_right, List.mapM_map]
          refine congrArg (List.mapM · (group.lines.zip held)) (funext fun entry => ?_)
          exact valueOf_map h.handles.injective fetched entry.1 entry.2

theorem setValues (h : Mirrors region numbers gap a b) (ha : a.Fenced region lent)
    (hb : b.Accord lent) (hlines : ∀ line ∈ group.lines, region.Lists a line)
    (values : List UInt8) :
    Alike region numbers gap (a.setValues group values) (b.setValues group values) := by
  unfold World.setValues
  rw [h.planValues ha hlines]
  rcases hplan : a.planValues group values with error | ⟨id, handle, ordered⟩
  · exact h.alikeFail error
  have hcovers := (planValues_ok hplan).1
  obtain ⟨outcome, after, later, hafter, hlater, hmirrors⟩ :=
    (h.performSetValues ha.accord hb hcovers.found (ha.covered hlines hcovers) ordered).split
  simp only [Except.map, commitValues, Handle.renumber]
  rw [hafter, hlater]
  cases outcome with
  | error error => exact ⟨rfl, hmirrors⟩
  | ok _ => exact ⟨rfl, hmirrors.modifyHandle id (fun _ => rfl) fun _ => ⟨rfl, rfl, rfl, rfl⟩⟩

/-! ### Configurations -/

theorem setConfig (h : Mirrors region numbers gap a b) (ha : a.Fenced region lent)
    (hb : b.Accord lent) (hlines : ∀ line ∈ group.lines, region.Lists a line) (type : RequestType)
    (flags : RequestFlags) (values : Option (List UInt8)) :
    Alike region numbers gap (a.setConfig group type flags values)
      (b.setConfig group type flags values) := by
  unfold World.setConfig
  rw [h.planConfig ha hlines]
  split
  · exact h.alikeFail _
  cases hplan : a.planConfig group type flags values with
  | error error => exact h.alikeFail error
  | ok plan =>
      have hcovers := (planConfig_ok hplan).1
      obtain ⟨outcome, after, later, hafter, hlater, hmirrors⟩ := (h.performSetConfig ha.accord hb
        hcovers.found (ha.covered hlines hcovers) plan.flags plan.values).split
      simp only [Except.map, commitConfig, ConfigPlan.renumber, Handle.renumber]
      rw [hafter, hlater]
      cases outcome with
      | error error => exact ⟨rfl, hmirrors⟩
      | ok _ =>
          have hconfigured := (hmirrors.modifyHandle plan.id (fun _ => rfl)
            (f := (·.configured plan.flags plan.values)) fun _ => ⟨rfl, rfl, rfl, rfl⟩).note
            (.reconfigured plan.handle.offsets plan.flags)
            (.reconfigured plan.handle.offsets plan.flags)
          refine ⟨rfl, hconfigured.updateAll fun line hline => ?_⟩
          obtain ⟨machine, -, rfl⟩ := perform_eq hafter
          exact hlines line hline

theorem setFlags (h : Mirrors region numbers gap a b) (ha : a.Fenced region lent)
    (hb : b.Accord lent) (hlines : ∀ line ∈ group.lines, region.Lists a line)
    (flags : RequestFlags) :
    Alike region numbers gap (a.setFlags group flags) (b.setFlags group flags) := by
  unfold World.setFlags
  rw [h.valuesHandle ha hlines]
  cases a.valuesHandle group with
  | error error => exact h.alikeFail error
  | ok held => exact h.setConfig ha hb hlines ..

theorem setDirectionInput (h : Mirrors region numbers gap a b) (ha : a.Fenced region lent)
    (hb : b.Accord lent) (hlines : ∀ line ∈ group.lines, region.Lists a line) :
    Alike region numbers gap (a.setDirectionInput group) (b.setDirectionInput group) := by
  unfold World.setDirectionInput
  rw [h.valuesHandle ha hlines]
  cases a.valuesHandle group with
  | error error => exact h.alikeFail error
  | ok held => exact h.setConfig ha hb hlines ..

theorem setDirectionOutput (h : Mirrors region numbers gap a b) (ha : a.Fenced region lent)
    (hb : b.Accord lent) (hlines : ∀ line ∈ group.lines, region.Lists a line)
    (values : List UInt8) :
    Alike region numbers gap (a.setDirectionOutput group values)
      (b.setDirectionOutput group values) := by
  unfold World.setDirectionOutput
  rw [h.valuesHandle ha hlines]
  cases group.checkCount values with
  | error error => exact h.alikeFail error
  | ok _ =>
      cases a.valuesHandle group with
      | error error => exact h.alikeFail error
      | ok held => exact h.setConfig ha hb hlines ..

/-! ### Requests -/

theorem requestValues (h : Mirrors region numbers gap a b) (ha : a.Accord lent) (hb : b.Accord lent)
    (hwithin : ∀ offset ∈ group.offsets, offset ∈ region.offsets) (config : RequestConfig)
    (defaults : Option (List UInt8)) :
    Alike region numbers gap
      (a.requestValues (.simulator region.index) group config defaults)
      (b.requestValues (.simulator region.index) group config defaults) := by
  rcases h.performRequestLines ha hb (linesRequest group config defaults) hwithin with
    ⟨error, after, later, hafter, hlater, hmirrors⟩ | ⟨after, later, hafter, hlater, hopened⟩
  · rw [requestValues_refused hafter, requestValues_refused hlater]
    exact ⟨rfl, hmirrors⟩
  · rw [requestValues_granted hafter, requestValues_granted hlater]
    have hmirrors := hopened
      (linesHandle (.simulator region.index) a.bench.files.next group config defaults) rfl rfl rfl
    have hhandle : (linesHandle (.simulator region.index) a.bench.files.next group config
        defaults).renumber numbers =
          linesHandle (.simulator region.index) b.bench.files.next group config defaults := by
      rw [← h.files.apply_next]
      rfl
    have hnext : later.handles.next = numbers.handle after.handles.next := by
      rw [handles_of_perform hafter, handles_of_perform hlater, h.handles.apply_next]
    have hattached := (hhandle ▸ hmirrors).attachAll .values (group.lines.map (·, after.handles.next))
    rw [List.map_map] at hattached
    refine ⟨rfl, Mirrors.note ?_ _ _⟩
    rw [hnext]
    exact hattached

section Events

variable {id : ChipId} {chip other : Chip}

theorem acquireEvents (h : Mirrors region numbers gap a b) (ha : a.Accord lent) (hb : b.Accord lent)
    (hopen : a.openChip id = .ok chip) (hdevice : chip.device = .simulator region.index)
    (htwin : b.openChip id = .ok other) (hsame : other.device = .simulator region.index)
    (config : RequestConfig) {lines : List Line}
    (hlines : ∀ line ∈ lines, line.chip = id ∧ line.offset ∈ region.offsets)
    {granted : List HandleId} (hgranted : ∀ key ∈ granted, ∀ handle,
      a.handles.get? key = some handle → region.Has handle) :
    let one := a.acquireEvents (.simulator region.index) config granted lines
    let two := b.acquireEvents (.simulator region.index) config (granted.map numbers.handle) lines
    two.1 = (one.1.1, one.1.2.map numbers.handle) ∧ Mirrors region numbers gap one.2 two.2 ∧
      one.2.Accord lent ∧ two.2.Accord lent ∧
      ∀ key ∈ one.1.2, ∀ handle, one.2.handles.get? key = some handle → region.Has handle := by
  induction lines generalizing a b granted with
  | nil => exact ⟨rfl, h, ha, hb, hgranted⟩
  | cons line rest ih =>
      obtain ⟨hchip, hmem⟩ := hlines line List.mem_cons_self
      rcases h.performRequestEvent ha hb (eventRequest config line) hmem with
        ⟨error, after, later, hafter, hlater, hmirrors⟩ | ⟨after, later, hafter, hlater, hopened⟩
      · rw [acquireEvents_refused hafter, acquireEvents_refused hlater]
        refine ⟨rfl, hmirrors, ha.call hafter, hb.call hlater, ?_⟩
        rw [handles_of_perform hafter]
        exact hgranted
      · rw [acquireEvents_granted hafter, acquireEvents_granted hlater]
        have hmirrors := hopened
          (eventGrant (.simulator region.index) config line a.bench.files.next) rfl rfl rfl
        have hhandle : (eventGrant (.simulator region.index) config line
            a.bench.files.next).renumber numbers =
              eventGrant (.simulator region.index) config line b.bench.files.next := by
          rw [← h.files.apply_next]
          rfl
        have hhandles := handles_of_perform hafter
        have hnext : later.handles.next = numbers.handle after.handles.next := by
          rw [hhandles, handles_of_perform hlater, h.handles.apply_next]
        have hlistened : Deal False ⟨a, ∅⟩ ⟨after.openHandle _, insert line ∅⟩ :=
          .listen (hchip ▸ hopen) (hdevice ▸ hafter)
        have hheard : Deal False ⟨b, ∅⟩ ⟨later.openHandle _, insert line ∅⟩ :=
          .listen (hchip ▸ htwin) (hsame ▸ hlater)
        have hlists : granted.map numbers.handle ++ [later.handles.next] =
            (granted ++ [after.handles.next]).map numbers.handle := by
          rw [hnext, List.map_append, List.map_singleton]
        rw [hlists]
        refine ih (hhandle ▸ hmirrors) (hdevice ▸ hlistened.accord ha) (hsame ▸ hheard.accord hb)
          (openChip_of_perform hafter ▸ hopen) (openChip_of_perform hlater ▸ htwin)
          (fun other hother => hlines other (List.mem_cons_of_mem _ hother)) ?_
        intro key hkey handle hget
        change (after.handles.add _).get? key = some handle at hget
        rw [hhandles, Table.get?_add ha.fresh] at hget
        split at hget
        · obtain rfl := Option.some.inj hget
          exact ⟨rfl, fun offset hoffset => List.mem_singleton.mp hoffset ▸ hmem⟩
        · next hne =>
          rcases List.mem_append.mp hkey with hold | hnew
          · exact hgranted key hold handle hget
          · exact absurd (hhandles ▸ List.mem_singleton.mp hnew) hne

theorem requestEvents (h : Mirrors region numbers gap a b) (ha : a.Fenced region lent)
    (hb : b.Accord lent) (hsound : Desk.Sound ⟨b, 0⟩) (htakeable : a.Takeable group chip id)
    (hdevice : chip.device = .simulator region.index) (htwin : b.openChip id = .ok other)
    (hsame : other.device = .simulator region.index)
    (hwithin : ∀ line ∈ group.lines, line.offset ∈ region.offsets) (config : RequestConfig) :
    Alike region numbers gap (a.requestEvents (.simulator region.index) group config)
      (b.requestEvents (.simulator region.index) group config) := by
  have hacquired := h.acquireEvents ha.accord hb htakeable.isOpen hdevice htwin hsame config
    (fun line hline => ⟨htakeable.members line hline, hwithin line hline⟩)
    (fun _ hkey => absurd hkey List.not_mem_nil)
  have hfirst := sound_acquireEvents ha.desk (.simulator region.index) config group.lines
  have hsecond := sound_acquireEvents hsound (.simulator region.index) config group.lines
  unfold World.requestEvents
  simp only [List.map_nil] at hacquired
  generalize World.acquireEvents a (.simulator region.index) config [] group.lines = one
    at hacquired hfirst ⊢
  generalize World.acquireEvents b (.simulator region.index) config [] group.lines = two
    at hacquired hsecond ⊢
  obtain ⟨⟨refused, granted⟩, after⟩ := one
  obtain ⟨⟨answer, given⟩, later⟩ := two
  obtain ⟨heq, hmirrors, hone, htwo, hhas⟩ := hacquired
  obtain ⟨rfl, rfl⟩ := Prod.mk.inj heq
  rcases answer with - | ⟨line, error⟩
  · have hattached := hmirrors.attachAll .events (group.lines.zip granted)
    refine ⟨rfl, Mirrors.note ?_ _ _⟩
    simp only [List.zip_map_right]
    exact hattached
  · refine ⟨rfl, ?_⟩
    simp only [List.isEmpty_map]
    split
    · exact hmirrors.dropHandles hone htwo hfirst hsecond hhas
    · exact (hmirrors.note _ _).dropHandles (hone.of_filesOnly ⟨rfl, rfl⟩ rfl rfl (fun _ _ hid => hid)
        fun _ => Or.inl rfl) (htwo.of_filesOnly ⟨rfl, rfl⟩ rfl rfl (fun _ _ hid => hid)
        fun _ => Or.inl rfl) (hfirst.of_ledger_eq (hfirst.tidy.congr rfl rfl) rfl)
        (hsecond.of_ledger_eq (hsecond.tidy.congr rfl rfl) rfl) hhas

end Events

theorem request (h : Mirrors region numbers gap a b) (ha : a.Fenced region lent)
    (hb : b.Accord lent) (hsound : Desk.Sound ⟨b, 0⟩)
    (hlines : ∀ line ∈ group.lines, region.Lists a line) (hsize : group.size ≤ maxLines)
    (config : RequestConfig) (defaults : Option (List UInt8)) :
    Alike region numbers gap (a.request group config defaults) (b.request group config defaults) := by
  unfold World.request requestLocked
  rw [h.checkRequest]
  split
  · exact h.alikeFail _
  next hcheck =>
  rcases h.checkTakeable hlines with ⟨error, hone, htwo⟩ | ⟨chip, other, hone, htwo, hface⟩
  · rw [hone, htwo]
    exact h.alikeFail error
  obtain ⟨first, hfirst, htakeable⟩ := takeable_of_checkTakeable hone
  obtain ⟨line, hline⟩ := List.exists_mem_of_ne_nil _ htakeable.nonempty
  have hdevice : chip.device = .simulator region.index :=
    Option.some.inj ((htakeable.toOnChip.device hline).symm.trans (hlines line hline).1)
  have hsame : other.device = .simulator region.index :=
    (congrArg Chip.device hface).trans hdevice
  have hwithin : ∀ line ∈ group.lines, line.offset ∈ region.offsets :=
    fun line hline => (hlines line hline).2
  have htaken : Alike region numbers gap
      (if config.type.isEvent then a.requestEvents chip.device group config
        else a.requestValues chip.device group config defaults)
      (if config.type.isEvent then b.requestEvents other.device group config
        else b.requestValues other.device group config defaults) := by
    rw [hdevice, hsame]
    split
    · obtain ⟨twin, htwin, htakes⟩ := takeable_of_checkTakeable htwo
      obtain rfl := Option.mem_unique hfirst htwin
      exact h.requestEvents ha hb hsound htakeable hdevice htakes.isOpen hsame hwithin config
    · refine h.requestValues ha.accord hb (fun offset hoffset => ?_) config defaults
      obtain ⟨line, hline, rfl⟩ := List.mem_map.mp hoffset
      exact hwithin line hline
  have hboard : (if config.type.isEvent then a.requestEvents chip.device group config
      else a.requestValues chip.device group config defaults).2.board.device? = a.board.device? := by
    split
    · rcases deals_requestEvents ha.desk htakeable rfl with
        ⟨-, -, hdeals⟩ | ⟨-, -, due, -, hdeals⟩
      all_goals exact Deals.device? hdeals
    · rcases deals_requestValues ha.desk htakeable hsize (count_of_checkRequest hcheck) rfl with
        ⟨-, -, hdeals⟩ | ⟨-, -, hdeals⟩
      all_goals exact Deals.device? hdeals
  simp only [hone, htwo]
  generalize (if config.type.isEvent then a.requestEvents chip.device group config
    else a.requestValues chip.device group config defaults) = taken at htaken hboard ⊢
  generalize (if config.type.isEvent then b.requestEvents other.device group config
    else b.requestValues other.device group config defaults) = given at htaken ⊢
  obtain ⟨outcome, after⟩ := taken
  obtain ⟨answer, later⟩ := given
  obtain ⟨rfl, hmirrors⟩ := htaken
  cases answer with
  | error error => exact ⟨rfl, hmirrors⟩
  | ok _ =>
      refine ⟨rfl, hmirrors.updateAll fun line hline => ?_⟩
      rw [Region.Lists, show after.board.device? = a.board.device? from hboard]
      exact hlines line hline

/-! ### Releases -/

theorem detachAll (h : Mirrors region numbers gap a b) {lines : List Line}
    (hlines : ∀ line ∈ lines, region.Lists a line) :
    (b.detachAll lines).1 = (a.detachAll lines).1.map numbers.handle ∧
      Mirrors region numbers gap (a.detachAll lines).2 (b.detachAll lines).2 := by
  induction lines generalizing a b with
  | nil => exact ⟨rfl, h⟩
  | cons line rest ih =>
      have hdetach : Mirrors region numbers gap (a.detach line).2 (b.detach line).2 :=
        h.modifyLine line fun _ => rfl
      obtain ⟨hheld, hmirrors⟩ := ih hdetach fun other hother => by
        rw [Region.Lists, show (a.detach line).2.board.device? = _ from device?_modifyLine a line _]
        exact hlines other (List.mem_cons_of_mem _ hother)
      refine ⟨?_, hmirrors⟩
      have hfirst : (b.detach line).1 = (a.detach line).1.map numbers.handle := by
        rw [World.detach, World.detach, h.slot (hlines line List.mem_cons_self),
          Slot.handle?_renumber]
      change (b.detach line).1.toList ++ ((b.detach line).2.detachAll rest).1 =
        ((a.detach line).1.toList ++ ((a.detach line).2.detachAll rest).1).map numbers.handle
      rw [hfirst, hheld, List.map_append]
      cases (a.detach line).1 <;> rfl

theorem release (h : Mirrors region numbers gap a b) (ha : a.Fenced region lent)
    (hb : b.Accord lent) (hsound : Desk.Sound ⟨b, 0⟩)
    (hlines : ∀ line ∈ group.lines, region.Lists a line) :
    Mirrors region numbers gap (a.release group) (b.release group) := by
  obtain ⟨hheld, hdetached⟩ := h.detachAll hlines
  have hone : (a.detachAll group.lines).2.Accord lent :=
    Deals.accord (deals_detachAll group.lines : Deals False _ _) ha.accord
  have htwo : (b.detachAll group.lines).2.Accord lent :=
    Deals.accord (deals_detachAll group.lines : Deals False _ _) hb
  have hfirst := sound_detachAll ha.desk group.lines
  have hsecond := hheld ▸ sound_detachAll hsound group.lines
  have hdropped := hdetached.dropHandles hone htwo hfirst hsecond fun id hid handle hget => by
    obtain ⟨line, hline, hholds⟩ := holds_of_mem_detachAll hid
    obtain ⟨found, hfound, hhas⟩ := ha.has (hlines line hline) hholds
    rw [handles_detachAll] at hget
    obtain rfl := Option.mem_unique hget hfound
    exact hhas
  have hopen : (group.first?.any fun line => b.isOpen line.chip) =
      group.first?.any fun line => a.isOpen line.chip := by
    simp only [h.isOpen]
  unfold World.release
  simp only [hheld, hopen, List.isEmpty_map]
  split
  · exact hdropped
  · split
    · refine (hdropped.note _ _).updateAll fun line hline => ?_
      have hdeals : Deals False ⟨a, ∅⟩
          ⟨(a.detachAll group.lines).2.dropHandles (a.detachAll group.lines).1, ∅⟩ :=
        (deals_detachAll group.lines).trans (deals_dropHandles _)
      rw [Region.Lists, board_note, hdeals.device?]
      exact hlines line hline
    · exact hdropped.note _ _

end Mirrors

theorem Alike.map {α β : Type} {region : Region} {numbers : Renumbering} {gap : Int}
    {one two : Except Error α × World (Traced Bench)} (h : Alike region numbers gap one two)
    (f : α → β) : Alike region numbers gap (one.1.map f, one.2) (two.1.map f, two.2) :=
  ⟨congrArg (Except.map f) h.answer, h.mirrors⟩

end World

/-! ### Tasks -/

/-- What somebody who works on a group does in one go. -/
inductive GroupTask where
  | operate (operation : GroupOperation)
  | release

namespace GroupTask

/-- The answer, which for a read are the values, and the world that is left. -/
def perform {σ : Type} [Machine σ] (group : Group) (world : World σ) :
    GroupTask → Except Error (List UInt8) × World σ
  | .operate .getValues => world.getValues group
  | .operate operation =>
    let (outcome, world) := operation.run group world
    (outcome.map fun _ => [], world)
  | .release => (.ok [], world.release group)

/-- **A task on a group depends on the region of the group only.** -/
theorem alike {region : Region} {numbers : Renumbering} {gap : Int} {a b : World (Traced Bench)}
    {lent : List (Device × FileId)} (h : World.Mirrors region numbers gap a b)
    (ha : a.Fenced region lent) (hb : b.Accord lent) (hsound : Desk.Sound ⟨b, 0⟩) {group : Group}
    (hlines : ∀ line ∈ group.lines, region.Lists a line) (hsize : group.size ≤ maxLines)
    (task : GroupTask) :
    World.Alike region numbers gap (task.perform group a) (task.perform group b) := by
  rcases task with operation | -
  · cases operation with
    | getValues => exact h.getValues ha hb hlines
    | request config defaults => exact (h.request ha hb hsound hlines hsize config defaults).map _
    | setValues values => exact (h.setValues ha hb hlines values).map _
    | setConfig type flags values => exact (h.setConfig ha hb hlines type flags values).map _
    | setFlags flags => exact (h.setFlags ha hb hlines flags).map _
    | setDirectionInput => exact (h.setDirectionInput ha hb hlines).map _
    | setDirectionOutput values => exact (h.setDirectionOutput ha hb hlines values).map _
  · exact ⟨rfl, h.release ha hb hsound hlines⟩

end GroupTask

end GpioLines
