import Mathlib.Data.List.Flatten
import Mathlib.Data.List.Nodup
import Mathlib.Data.List.Pairwise
import GpioLines.Proofs.Lease
import GpioLines.Proofs.SimulatedLines

/-!
# A simulated chip lends no line twice

Several chips can be opened on one device, and none of them knows of the others. What keeps them
apart is the device, and it decides by two things that it has to keep in step: the marks of its lines
and the list of its grants. A request looks at the marks only, and a release clears the marks of all
the lines of its grant. Both are right because the lines of the grants that run are all different:
then a line that is not marked is in no grant, and a release takes no mark away from another grant.
-/

namespace GpioLines

/-- What a simulated chip keeps of a call that it grants under this number. -/
def Call.grants (file : FileId) : Call → List Grant
  | .requestLines request => [{ file, offsets := request.offsets }]
  | .requestEvent request => [{ file, offsets := [request.offset], edges := some request.edges }]
  | _ => []

theorem Call.file_of_mem_grants {file : FileId} {call : Call} {grant : Grant}
    (h : grant ∈ call.grants file) : grant.file = file := by
  cases call with
  | requestLines | requestEvent => rw [List.mem_singleton.mp h]
  | _ => cases h

theorem Call.length_grants (device : Device) (file : FileId) {call : Call} (reply : call.Reply) :
    (call.grants file).length = (call.granted device (.ok reply)).card := by
  cases call <;> rfl

namespace SimLine

/-- A line that is held says so, and one that is not names no consumer. -/
structure Marked (line : SimLine) : Prop where
  used : line.requested = line.flags.used
  unowned : line.requested = false → line.consumer = none

/-- An update that leaves the marks in order and the line held, if it was. -/
structure Keeps (f : SimLine → SimLine) : Prop where
  marked : ∀ line : SimLine, line.Marked → (f line).Marked
  requested : ∀ line : SimLine, line.requested = true → (f line).requested = true

theorem marked_default : Marked {} := ⟨rfl, fun _ => rfl⟩

theorem marked_free {line : SimLine} : line.free.Marked := ⟨rfl, fun _ => rfl⟩

theorem keeps_take (consumer : String) : Keeps (·.take consumer) :=
  ⟨fun _ _ => ⟨rfl, nofun⟩, fun _ _ => rfl⟩

/-- An update that leaves the holder alone. -/
theorem keeps_of_eq {f : SimLine → SimLine}
    (hf : ∀ line : SimLine, (f line).requested = line.requested ∧
      (f line).flags.used = line.flags.used ∧ (f line).consumer = line.consumer) : Keeps f := by
  refine ⟨fun line h => ⟨?_, ?_⟩, fun line h => ?_⟩
  · rw [(hf line).1, (hf line).2.1]
    exact h.used
  · rw [(hf line).1, (hf line).2.2]
    exact h.unowned
  · rw [(hf line).1]
    exact h

theorem keeps_applyFlags (flags : HandleFlags) : Keeps (·.applyFlags flags) :=
  keeps_of_eq fun _ => ⟨rfl, rfl, rfl⟩

theorem keeps_drive (active : Bool) : Keeps (·.drive active) :=
  keeps_of_eq fun _ => ⟨rfl, rfl, rfl⟩

theorem keeps_configure (flags : HandleFlags) (value : UInt8) : Keeps (·.configure flags value) := by
  apply keeps_of_eq
  intro line
  simp only [configure]
  split <;> exact ⟨rfl, rfl, rfl⟩

end SimLine

namespace Simulator

structure Exclusive (sim : Simulator) : Prop where
  files : (sim.grants.map (·.file)).Nodup
  /-- No line is in two grants, or twice in one. -/
  once : (sim.grants.flatMap (·.offsets)).Nodup
  held : ∀ grant ∈ sim.grants, ∀ offset ∈ grant.offsets, ∃ line,
    sim.line? offset = some line ∧ line.requested = true
  marked : ∀ offset line, sim.line? offset = some line → line.Marked

variable {sim after : Simulator}

theorem exclusive_create (name : String) (lineCount : UInt32) : (create name lineCount).Exclusive where
  files := .nil
  once := .nil
  held := nofun
  marked := by
    intro offset line hline
    obtain ⟨-, rfl⟩ := Array.getElem?_eq_some_iff.mp hline
    simp only [create, Array.getElem_replicate]
    exact SimLine.marked_default

/-- A line that is held stays held. -/
theorem requested_modifyAll {updates : List (Offset × (SimLine → SimLine))}
    (hf : ∀ update ∈ updates, SimLine.Keeps update.2) {offset : Offset}
    (h : ∃ line, sim.line? offset = some line ∧ line.requested = true) :
    ∃ line, (sim.modifyAll updates).line? offset = some line ∧ line.requested = true := by
  induction updates generalizing sim with
  | nil => exact h
  | cons update rest ih =>
      obtain ⟨line, hline, hrequested⟩ := h
      rw [modifyAll_cons]
      refine ih (fun other hother => hf other (List.mem_cons_of_mem _ hother)) ?_
      rw [line?_modifyLine, hline]
      split
      · exact ⟨_, rfl, (hf update List.mem_cons_self).requested line hrequested⟩
      · exact ⟨line, rfl, hrequested⟩

namespace Exclusive

theorem nodup (h : sim.Exclusive) {grant : Grant} (hmem : grant ∈ sim.grants) :
    grant.offsets.Nodup :=
  (List.nodup_flatMap.mp h.once).1 grant hmem

theorem grant_eq (h : sim.Exclusive) {a b : Grant} (ha : a ∈ sim.grants) (hb : b ∈ sim.grants)
    {offset : Offset} (hmema : offset ∈ a.offsets) (hmemb : offset ∈ b.offsets) : a = b := by
  by_contra hne
  have hsymm : Std.Symm (Function.onFun List.Disjoint Grant.offsets) := ⟨fun _ _ hab _ hb ha => hab ha hb⟩
  exact (List.nodup_flatMap.mp h.once).2.forall ha hb hne hmema hmemb

theorem grant_eq_of_file (h : sim.Exclusive) {a b : Grant} (ha : a ∈ sim.grants)
    (hb : b ∈ sim.grants) (hfile : a.file = b.file) : a = b :=
  List.inj_on_of_nodup_map h.files ha hb hfile

theorem grant?_eq (h : sim.Exclusive) {grant : Grant} (hmem : grant ∈ sim.grants) :
    sim.grant? grant.file = some grant := by
  obtain ⟨found, hfound⟩ := Option.isSome_iff_exists.mp
    (List.find?_isSome (p := (·.file == grant.file)).mpr ⟨grant, hmem, beq_self_eq_true _⟩)
  have hfile : found.file = grant.file := by simpa using List.find?_some hfound
  rw [grant?, hfound, h.grant_eq_of_file (List.mem_of_find?_eq_some hfound) hmem hfile]

/-! ### Updates -/

/-- Nothing but the lines and the grants matters. -/
theorem congr (h : sim.Exclusive) (hlines : after.lines = sim.lines)
    (hgrants : after.grants = sim.grants) : after.Exclusive := by
  have hline : after.line? = sim.line? := by
    funext offset
    rw [line?, line?, hlines]
  refine ⟨?_, ?_, ?_, ?_⟩ <;> simp only [hgrants, hline]
  · exact h.files
  · exact h.once
  · exact h.held
  · exact h.marked

theorem modifyLine (h : sim.Exclusive) {f : SimLine → SimLine} (hf : SimLine.Keeps f)
    (offset : Offset) : (sim.modifyLine offset f).Exclusive := by
  refine ⟨h.files, h.once, ?_, ?_⟩
  · intro grant hgrant other hother
    obtain ⟨line, hline, hrequested⟩ := h.held grant hgrant other hother
    rw [line?_modifyLine, hline]
    split
    · exact ⟨f line, rfl, hf.requested line hrequested⟩
    · exact ⟨line, rfl, hrequested⟩
  · intro other line hline
    rw [line?_modifyLine] at hline
    split at hline
    · obtain ⟨old, hold, rfl⟩ := Option.map_eq_some_iff.mp hline
      exact hf.marked old (h.marked other old hold)
    · exact h.marked other line hline

theorem modifyAll (h : sim.Exclusive) {updates : List (Offset × (SimLine → SimLine))}
    (hf : ∀ update ∈ updates, SimLine.Keeps update.2) : (sim.modifyAll updates).Exclusive := by
  induction updates generalizing sim with
  | nil => exact h
  | cons update rest ih =>
      exact ih (h.modifyLine (hf update List.mem_cons_self) update.1) fun other hother =>
        hf other (List.mem_cons_of_mem _ hother)

theorem drives (h : sim.Exclusive) (offsets : List Offset) (values : List UInt8) :
    (sim.modifyAll (drives offsets values)).Exclusive := by
  apply h.modifyAll
  intro update hupdate
  obtain ⟨entry, -, rfl⟩ := List.mem_map.mp hupdate
  exact SimLine.keeps_drive _

theorem configures (h : sim.Exclusive) (offsets : List Offset) (flags : HandleFlags)
    (values : List UInt8) : (sim.modifyAll (configures offsets flags values)).Exclusive := by
  apply h.modifyAll
  intro update hupdate
  obtain ⟨entry, -, rfl⟩ := List.mem_map.mp hupdate
  exact SimLine.keeps_configure flags _

/-! ### Grants come and go -/

/-- Lines that nobody holds are in no grant. -/
theorem not_mem_of_offers (h : sim.Exclusive) {offsets : List Offset} (hoffers : sim.Offers offsets)
    {offset : Offset} (hmem : offset ∈ offsets) {grant : Grant} (hgrant : grant ∈ sim.grants) :
    offset ∉ grant.offsets := by
  intro hheld
  obtain ⟨line, hline, hrequested⟩ := h.held grant hgrant offset hheld
  obtain ⟨free, hfree, hnot⟩ := hoffers.free offset hmem
  obtain rfl := Option.mem_unique hline hfree
  rw [hrequested] at hnot
  cases hnot

theorem addGrant (h : sim.Exclusive) (grant : Grant) {consumer : String}
    {updates : List (Offset × (SimLine → SimLine))} (hoffers : sim.Offers grant.offsets)
    (hnew : ∀ old ∈ sim.grants, old.file ≠ grant.file)
    (hf : ∀ update ∈ updates, SimLine.Keeps update.2) :
    { (sim.modifyAll (takes grant.offsets consumer)).modifyAll updates with
      grants := sim.grants ++ [grant] : Simulator }.Exclusive := by
  have htaken : (sim.modifyAll (takes grant.offsets consumer)).Exclusive := by
    apply h.modifyAll
    intro update hupdate
    obtain ⟨offset, -, rfl⟩ := List.mem_map.mp hupdate
    exact SimLine.keeps_take consumer
  have hdone := htaken.modifyAll hf
  refine ⟨?_, ?_, ?_, hdone.marked⟩
  · rw [List.map_append, List.map_singleton, ← List.concat_eq_append]
    refine List.Nodup.concat ?_ h.files
    intro hmem
    obtain ⟨old, hold, hfile⟩ := List.mem_map.mp hmem
    exact hnew old hold hfile
  · rw [List.flatMap_append, List.flatMap_singleton]
    refine List.Nodup.append h.once hoffers.nodup ?_
    intro offset hmem hoffset
    obtain ⟨old, hold, holds⟩ := List.mem_flatMap.mp hmem
    exact h.not_mem_of_offers hoffers hoffset hold holds
  · intro other hother offset hoffset
    rcases List.mem_append.mp hother with hother | hother
    · exact hdone.held other (by simpa using hother) offset hoffset
    · obtain rfl := List.mem_singleton.mp hother
      obtain ⟨line, hline, -⟩ := hoffers.free offset hoffset
      refine requested_modifyAll hf ⟨line.take consumer, ?_, rfl⟩
      rw [line?_takes hoffers.nodup hoffset, hline]
      rfl

theorem release (h : sim.Exclusive) (file : FileId) : (sim.release file).Exclusive := by
  rcases sim.release_eq file with ⟨-, heq⟩ | ⟨grant, hgrant, hfile, -, heq⟩
  · rw [heq]
    exact h
  · rw [heq]
    have hkept : ∀ other ∈ sim.grants.filter (·.file != file),
        other ∈ sim.grants ∧ other ≠ grant := by
      intro other hother
      obtain ⟨hmem, hne⟩ := List.mem_filter.mp hother
      refine ⟨hmem, ?_⟩
      rintro rfl
      simp [hfile] at hne
    refine ⟨h.files.sublist (List.filter_sublist.map _),
      h.once.sublist (List.filter_sublist.flatMap _), ?_, ?_⟩
    · intro other hother offset hoffset
      obtain ⟨hmem, hne⟩ := hkept other hother
      obtain ⟨line, hline, hrequested⟩ := h.held other hmem offset hoffset
      refine ⟨line, ?_, hrequested⟩
      have hapart : offset ∉ grant.offsets := fun hfreed =>
        hne (h.grant_eq hmem hgrant hoffset hfreed)
      exact (line?_frees (h.nodup hgrant) offset).trans ((if_neg hapart).trans hline)
    · intro offset line hline
      change (sim.modifyAll (frees grant.offsets)).line? offset = some line at hline
      rw [line?_frees (h.nodup hgrant)] at hline
      split at hline
      · obtain ⟨old, -, rfl⟩ := Option.map_eq_some_iff.mp hline
        exact SimLine.marked_free
      · exact h.marked offset line hline

end Exclusive

/-! ### Calls -/

/-- How many requests were granted so far. -/
def served (sim : Simulator) : Nat := sim.grants.length + sim.released

theorem served_release (h : sim.Exclusive) (file : FileId) :
    (sim.release file).served = sim.served := by
  rcases sim.release_eq file with ⟨-, heq⟩ | ⟨grant, hgrant, hfile, -, heq⟩
  · rw [heq]
  · have hmem : file ∈ sim.grants.map (·.file) := List.mem_map.mpr ⟨grant, hgrant, hfile⟩
    have hrest : (sim.grants.filter (·.file != file)).length =
        ((sim.grants.map (·.file)).erase file).length := by
      rw [h.files.erase_eq_filter, List.filter_map, List.length_map]
      rfl
    have hpos := List.length_pos_of_mem hgrant
    rw [List.length_erase_of_mem hmem, List.length_map] at hrest
    rw [heq]
    simp only [served, hrest]
    omega

/-- **What a call leaves exclusive.** -/
theorem Exclusive.perform (h : sim.Exclusive) {fresh : FileId}
    (hfresh : ∀ grant ∈ sim.grants, grant.file < fresh) (call : Call) :
    (sim.perform fresh call).2.Exclusive := by
  rcases hperform : sim.perform fresh call with ⟨error | reply, after⟩
  · rw [perform_refused hperform]
    exact h
  have hnew : ∀ old ∈ sim.grants, old.file ≠ fresh := fun old hold =>
    Nat.ne_of_lt (hfresh old hold)
  cases call with
  | chipInfo | lineInfo | getValues =>
      obtain rfl := (Prod.mk.inj hperform).2
      exact h
  | requestLines request =>
      obtain ⟨-, hgranted⟩ := settle_eq_ok.mp hperform
      obtain ⟨hoffers, -, rfl⟩ := requestLines_eq_ok hgranted
      refine h.addGrant ⟨fresh, request.offsets, none⟩ hoffers hnew ?_
      intro update hupdate
      obtain ⟨entry, -, rfl⟩ := List.mem_map.mp hupdate
      exact SimLine.keeps_configure _ _
  | requestEvent request =>
      obtain ⟨-, hgranted⟩ := settle_eq_ok.mp hperform
      obtain ⟨hoffers, -, rfl⟩ := requestEvent_eq_ok hgranted
      refine h.addGrant ⟨fresh, [request.offset], some request.edges⟩ hoffers hnew ?_
      intro update hupdate
      obtain rfl := List.mem_singleton.mp hupdate
      exact SimLine.keeps_applyFlags _
  | setValues file values =>
      obtain ⟨-, hset⟩ := settle_eq_ok.mp hperform
      obtain ⟨grant, -, -, -, -, rfl⟩ := setValues_eq_ok hset
      exact h.drives ..
  | setConfig file flags values =>
      obtain ⟨-, hset⟩ := settle_eq_ok.mp hperform
      obtain ⟨-, grant, -, -, -, rfl⟩ := setConfig_eq_ok hset
      exact h.configures ..

/-- A call that is answered adds its grant, and ends none. -/
theorem grants_perform {fresh : FileId} {call : Call} {reply : call.Reply}
    (h : sim.perform fresh call = (.ok reply, after)) :
    after.grants = sim.grants ++ call.grants fresh ∧ after.released = sim.released := by
  cases call with
  | chipInfo | lineInfo | getValues =>
      obtain rfl := (Prod.mk.inj h).2
      exact ⟨(List.append_nil _).symm, rfl⟩
  | requestLines request =>
      obtain ⟨-, hgranted⟩ := settle_eq_ok.mp h
      obtain ⟨-, -, rfl⟩ := requestLines_eq_ok hgranted
      exact ⟨rfl, by simp⟩
  | requestEvent request =>
      obtain ⟨-, hgranted⟩ := settle_eq_ok.mp h
      obtain ⟨-, -, rfl⟩ := requestEvent_eq_ok hgranted
      exact ⟨rfl, by simp⟩
  | setValues file values =>
      obtain ⟨-, hset⟩ := settle_eq_ok.mp h
      obtain ⟨grant, -, -, -, -, rfl⟩ := setValues_eq_ok hset
      exact ⟨by simp [Call.grants], by simp⟩
  | setConfig file flags values =>
      obtain ⟨-, hset⟩ := settle_eq_ok.mp h
      obtain ⟨-, grant, -, -, -, rfl⟩ := setConfig_eq_ok hset
      exact ⟨by simp [Call.grants], by simp⟩

/-! ### Controls -/

theorem Exclusive.setLevel (h : sim.Exclusive) (offset : Offset) (level : Bool) :
    (sim.setLevel offset level).2.Exclusive := by
  obtain ⟨clock, heq | heq⟩ := sim.setLevel_eq offset level
  · rw [heq]
    have hmodified : (sim.modifyLine offset ({ · with level })).Exclusive := by
      apply h.modifyLine
      exact SimLine.keeps_of_eq fun _ => ⟨rfl, rfl, rfl⟩
    exact hmodified.congr rfl rfl
  · rw [heq]
    exact h

theorem Exclusive.hog (h : sim.Exclusive) (offset : Offset) (consumer : String) :
    (sim.hog offset consumer).Exclusive := by
  apply h.modifyLine
  exact ⟨fun _ _ => ⟨rfl, nofun⟩, fun _ _ => rfl⟩

theorem Exclusive.setName (h : sim.Exclusive) (offset : Offset) (name : String) :
    (sim.setName offset name).Exclusive := by
  apply h.modifyLine
  exact SimLine.keeps_of_eq fun _ => ⟨rfl, rfl, rfl⟩

theorem Exclusive.failInfoAt (h : sim.Exclusive) (offset : Offset) (fails : Bool) :
    (sim.failInfoAt offset fails).Exclusive := by
  apply h.modifyLine
  exact SimLine.keeps_of_eq fun _ => ⟨rfl, rfl, rfl⟩

/-! ### Events -/

/-- **At most one file is told of an event.** -/
theorem Exclusive.length_subscribers_le (h : sim.Exclusive) (offset : Offset) (edge : Edge) :
    (sim.subscribers offset edge).length ≤ 1 := by
  have hapart : sim.grants.Pairwise (Function.onFun List.Disjoint Grant.offsets) :=
    (List.nodup_flatMap.mp h.once).2
  have hlisted : ∀ grant ∈ sim.grants.filter fun grant =>
      grant.edges.any (·.contains edge) && grant.offsets.head? == some offset,
      offset ∈ grant.offsets := by
    intro grant hgrant
    have hhead := (List.mem_filter.mp hgrant).2
    rw [Bool.and_eq_true, beq_iff_eq] at hhead
    exact List.mem_of_head? hhead.2
  rw [subscribers, List.length_map]
  generalize hfound : sim.grants.filter _ = found at hlisted
  have hpairwise : found.Pairwise (Function.onFun List.Disjoint Grant.offsets) :=
    hfound ▸ hapart.sublist List.filter_sublist
  match found, hpairwise, hlisted with
  | [], _, _ => exact Nat.zero_le 1
  | [_], _, _ => exact Nat.le_refl 1
  | first :: second :: _, hpairwise, hlisted =>
      have hdisjoint := List.rel_of_pairwise_cons hpairwise List.mem_cons_self
      exact absurd (hlisted second (by simp)) (hdisjoint (hlisted first (by simp)))

end Simulator

end GpioLines
