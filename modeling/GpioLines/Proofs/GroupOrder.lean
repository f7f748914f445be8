import GpioLines.Proofs.Atomicity
import GpioLines.Proofs.Representation

/-!
# Three orders

A group has an order of its own, and may have lines more than once. A request has the order of the
group it was made with, which need not be the order of any later group. What a device is handed and
what it answers is in the order of the request. So a write goes from group order to request order
and a read comes back; both go by the offset of a line, and both ways its place in the request is
what counts.
-/

namespace GpioLines

/-! ### From group order to request order -/

/-- The value that a list in group order has for an offset: the one at the last place where the group
has the offset. -/
def Group.Gives (group : Group) (values : List UInt8) (offset : Offset) (value : UInt8) : Prop :=
  ∃ position : Nat, group.offsets[position]? = some offset ∧ values[position]? = some value ∧
    ∀ later, position < later → group.offsets[later]? ≠ some offset

theorem exists_last {α : Type} {items : List α} {item : α} (h : item ∈ items) :
    ∃ position : Nat, items[position]? = some item ∧
      ∀ later, position < later → items[later]? ≠ some item := by
  induction items with
  | nil => cases h
  | cons first rest ih =>
      by_cases hrest : item ∈ rest
      · obtain ⟨position, hposition, hlast⟩ := ih hrest
        refine ⟨position + 1, hposition, fun later hlater => ?_⟩
        obtain ⟨before, rfl⟩ := Nat.exists_eq_succ_of_ne_zero (Nat.ne_zero_of_lt hlater)
        exact hlast before (Nat.lt_of_succ_lt_succ hlater)
      · obtain rfl := (List.mem_cons.mp h).resolve_right hrest
        refine ⟨0, rfl, fun later hlater hsome => hrest ?_⟩
        obtain ⟨before, rfl⟩ := Nat.exists_eq_succ_of_ne_zero (Nat.ne_zero_of_lt hlater)
        exact List.mem_of_getElem? (i := before) hsome

theorem Group.exists_gives {group : Group} {values : List UInt8} (hlength : values.length = group.size)
    {offset : Offset} (hmem : offset ∈ group.offsets) : ∃ value, group.Gives values offset value := by
  obtain ⟨position, hposition, hlast⟩ := exists_last hmem
  have hlt : position < values.length := by
    rw [hlength, Group.size, ← List.length_map (f := (·.offset))]
    exact (List.getElem?_eq_some_iff.mp hposition).1
  exact ⟨values[position], position, hposition, List.getElem?_eq_getElem hlt, hlast⟩

/-- Puts one value to its place in the request. -/
def Handle.place (handle : Handle) (ordered : List UInt8) (entry : Offset × UInt8) :
    Except Error (List UInt8) :=
  match handle.indexOf? entry.1 with
  | some index => .ok (ordered.set index (normalize entry.2))
  | none => .error (.invalid .foreignLine)

section Places

variable {handle : Handle} {entries : List (Offset × UInt8)} {start ordered : List UInt8}
  {position : Nat} {offset : Offset}

/-- A place is left alone as long as no value is for its offset. -/
theorem foldlM_place_of_not_mem (hposition : handle.offsets[position]? = some offset)
    (hout : offset ∉ entries.map (·.1)) (h : entries.foldlM handle.place start = .ok ordered) :
    ordered[position]? = start[position]? := by
  induction entries generalizing start with
  | nil => rw [Except.ok.inj h]
  | cons entry rest ih =>
      rw [List.map_cons, List.mem_cons, not_or] at hout
      rw [List.foldlM_cons, bind_eq_ok] at h
      obtain ⟨next, hnext, h⟩ := h
      rw [ih hout.2 h]
      cases hindex : handle.indexOf? entry.1 with
      | none => simp [Handle.place, hindex] at hnext
      | some index =>
          simp only [Handle.place, hindex, Except.ok.injEq] at hnext
          obtain ⟨hlt, hoffset, -⟩ := List.idxOf?_eq_some_iff.mp hindex
          rw [← hnext, List.getElem?_set_ne]
          rintro rfl
          rw [List.getElem?_eq_getElem hlt, hoffset] at hposition
          exact hout.1 (Option.some.inj hposition).symm

/-- The last value for an offset is the one that stays. -/
theorem foldlM_place_of_last (hnodup : handle.offsets.Nodup)
    (hposition : handle.offsets[position]? = some offset)
    (hlength : start.length = handle.offsets.length) {before after : List (Offset × UInt8)}
    {value : UInt8} (hsplit : entries = before ++ (offset, value) :: after)
    (hlast : offset ∉ after.map (·.1)) (h : entries.foldlM handle.place start = .ok ordered) :
    ordered[position]? = some (normalize value) := by
  subst hsplit
  induction before generalizing start with
  | nil =>
      rw [List.nil_append, List.foldlM_cons, bind_eq_ok] at h
      obtain ⟨next, hnext, h⟩ := h
      rw [foldlM_place_of_not_mem hposition hlast h]
      cases hindex : handle.indexOf? offset with
      | none => simp [Handle.place, hindex] at hnext
      | some index =>
          simp only [Handle.place, hindex, Except.ok.injEq] at hnext
          obtain ⟨hlt, hoffset, -⟩ := List.idxOf?_eq_some_iff.mp hindex
          have hsame : index = position := by
            rw [← List.getElem?_inj hlt hnodup, List.getElem?_eq_getElem hlt, hoffset, hposition]
          rw [← hnext, ← hsame, List.getElem?_set_self (hlength ▸ hlt)]
  | cons entry rest ih =>
      rw [List.cons_append, List.foldlM_cons, bind_eq_ok] at h
      obtain ⟨next, hnext, h⟩ := h
      refine ih ?_ h
      cases hindex : handle.indexOf? entry.1 with
      | none => simp [Handle.place, hindex] at hnext
      | some index =>
          simp only [Handle.place, hindex, Except.ok.injEq] at hnext
          rw [← hnext, List.length_set, hlength]

end Places

theorem Group.Gives.inRequestOrder {group : Group} {values ordered : List UInt8} {offset : Offset}
    {value : UInt8} (hgives : group.Gives values offset value) {handle : Handle}
    (hnodup : handle.offsets.Nodup) (h : group.inRequestOrder handle values = .ok ordered)
    {position : Nat} (hposition : handle.offsets[position]? = some offset) :
    ordered[position]? = some (normalize value) := by
  obtain ⟨place, hplace, hvalue, hlast⟩ := hgives
  have hentry : (group.offsets.zip values)[place]? = some (offset, value) :=
    List.getElem?_zip_eq_some.mpr ⟨hplace, hvalue⟩
  obtain ⟨hlt, hget⟩ := List.getElem?_eq_some_iff.mp hentry
  have hsplit : group.offsets.zip values = (group.offsets.zip values).take place ++
      (offset, value) :: (group.offsets.zip values).drop (place + 1) := by
    rw [← hget, List.getElem_cons_drop, List.take_append_drop]
  refine foldlM_place_of_last hnodup hposition List.length_replicate hsplit ?_ h
  intro hmem
  obtain ⟨⟨found, other⟩, hfound, rfl⟩ := List.mem_map.mp hmem
  obtain ⟨later, hlater⟩ := List.mem_iff_getElem?.mp hfound
  rw [List.getElem?_drop, List.getElem?_zip_eq_some] at hlater
  exact hlast _ (by omega) hlater.1

/-! ### Writes -/

namespace World

variable {σ : Type} {world : World σ} {group : Group}

theorem planValues_eq_ok {values ordered : List UInt8} {id : HandleId} {handle : Handle}
    (h : world.planValues group values = .ok (id, handle, ordered)) :
    values.length = group.size ∧ world.valuesHandle group = .ok (id, handle) ∧
      group.inRequestOrder handle values = .ok ordered := by
  rw [planValues, bind_eq_ok] at h
  obtain ⟨_, hcount, h⟩ := h
  rw [bind_eq_ok] at h
  obtain ⟨⟨key, found⟩, hhandle, h⟩ := h
  rw [bind_eq_ok] at h
  obtain ⟨laid, hlaid, h⟩ := h
  simp only [pure, Except.pure, Except.ok.injEq, Prod.mk.injEq] at h
  obtain ⟨rfl, rfl, rfl⟩ := h
  refine ⟨?_, hhandle, hlaid⟩
  unfold Group.checkCount at hcount
  split at hcount
  · next hlength => exact hlength
  · cases hcount

theorem handlesOf_of_allRequested (hsound : world.ledger.Sound) {chip : Chip}
    (hchip : world.chipOf group = .ok chip) (hrequested : world.allRequested group = true) :
    ∃ held, world.handlesOf group = .ok held := by
  have hserved : ∀ line ∈ group.lines, ∃ entry, world.handleOf line = .ok entry := by
    intro line hline
    obtain ⟨id, hholds⟩ := exists_holds (List.all_eq_true.mp hrequested line hline)
    obtain ⟨handle, hget, -⟩ := hsound.slot_open line id hholds
    exact ⟨(id, handle), handleOf_eq_ok.mpr (handle?_eq_some.mpr ⟨hholds, hget⟩)⟩
  obtain ⟨held, hheld⟩ := mapM_eq_ok hserved
  refine ⟨held, ?_⟩
  rw [handlesOf, hchip]
  exact hheld

variable [Machine σ]

theorem setValues_eq_ok {values : List UInt8} {after : World σ}
    (h : world.setValues group values = (.ok (), after)) : ∃ id handle ordered called,
      world.planValues group values = .ok (id, handle, ordered) ∧
      world.perform handle.device (.setValues handle.file ordered) = (.ok (), called) ∧
      after = { called with handles := called.handles.modify id (·.driven ordered) } := by
  unfold setValues at h
  split at h
  · cases (Prod.mk.inj h).1
  · next id handle ordered hplan =>
    unfold commitValues at h
    split at h
    · cases (Prod.mk.inj h).1
    · next hperform => exact ⟨id, handle, ordered, _, hplan, hperform, (Prod.mk.inj h).2.symm⟩

end World

/-! ### Reads -/

namespace World

variable {σ : Type} [Machine σ] {world : World (Traced σ)} {group : Group}

/-- What was fetched is what the handles reported, one call a handle. -/
theorem fetchAll_traced {held : List (HandleId × Handle)} {fetched : List (HandleId × List UInt8)}
    {after : World (Traced σ)} (h : world.fetchAll held = (.ok fetched, after)) :
    ∃ asked, after.machine.trace = world.machine.trace ++ asked ∧
      List.Forall₂ (fun entry result => result.1 = entry.1 ∧
        ∃ answer, result.2 = answer.val ∧ entry.2.reading (.ok answer) ∈ asked) held fetched := by
  induction held generalizing world fetched with
  | nil =>
      obtain ⟨hfetched, rfl⟩ := Prod.mk.inj h
      obtain rfl : [] = fetched := Except.ok.inj hfetched
      exact ⟨[], (List.append_nil _).symm, .nil⟩
  | cons entry rest ih =>
      unfold fetchAll at h
      simp only at h
      split at h
      · cases (Prod.mk.inj h).1
      · next answer mid hperform =>
        obtain ⟨machine, rfl, htrace, -⟩ := perform_traced hperform
        split at h
        · cases (Prod.mk.inj h).1
        · next more last hrest =>
          obtain ⟨hfetched, rfl⟩ := Prod.mk.inj h
          obtain rfl := Except.ok.inj hfetched
          obtain ⟨asked, hasked, hforall⟩ := ih hrest
          refine ⟨entry.2.reading (.ok answer) :: asked, ?_, .cons ?_ (hforall.imp ?_)⟩
          · rw [hasked]
            change machine.trace ++ asked = _
            rw [htrace, List.append_assoc]
            rfl
          · exact ⟨rfl, answer, rfl, List.mem_cons_self⟩
          · rintro other result ⟨hkey, reply, hreply, hmem⟩
            exact ⟨hkey, reply, hreply, List.mem_cons_of_mem _ hmem⟩

theorem valueOf_of_eq_ok {fetched : List (HandleId × List UInt8)} {line : Line}
    {held : HandleId × Handle} {value : UInt8} (h : valueOf fetched line held = .ok value) :
    ∃ values index, fetched.lookup held.1 = some values ∧
      held.2.indexOf? line.offset = some index ∧ values[index]? = some value := by
  unfold valueOf at h
  split at h
  · next values index hvalues hindex =>
    split at h
    · next found hfound =>
      obtain rfl := Except.ok.inj h
      exact ⟨values, index, hvalues, hindex, hfound⟩
    · cases h
  · cases h

/-- The value of a line is the entry of a report at the place that the line has in the request of
the handle that serves it. -/
structure Picked (world : World (Traced σ)) (asked : List Exchange) (line : Line) (value : UInt8)
    (id : HandleId) (handle : Handle) : Prop where
  serves : world.handle? line = some (id, handle)
  reported : ∃ answer, ∃ index : Nat, handle.reading (.ok answer) ∈ asked ∧
    handle.offsets[index]? = some line.offset ∧ answer.val[index]? = some value

theorem picked_of_getValues {read : List UInt8} {after : World (Traced σ)}
    (h : world.getValues group = (.ok read, after)) :
    ∃ asked, after.machine.trace = world.machine.trace ++ asked ∧
      List.Forall₂ (fun line value => ∃ id handle, world.Picked asked line value id handle)
        group.lines read := by
  unfold getValues at h
  split at h
  · cases (Prod.mk.inj h).1
  next held hheld =>
  split at h
  · cases (Prod.mk.inj h).1
  next fetched mid hfetch =>
  obtain ⟨hpicked, rfl⟩ := Prod.mk.inj h
  obtain ⟨asked, htrace, hforall⟩ := fetchAll_traced hfetch
  obtain ⟨-, hright⟩ := exists_of_forall₂ hforall
  have hserves := (forall₂_of_handlesOf hheld).2
  refine ⟨asked, htrace, ?_⟩
  have hlines : (group.lines.zip held).map (·.1) = group.lines :=
    List.map_fst_zip (Nat.le_of_eq hserves.length_eq)
  rw [← hlines, List.forall₂_map_left_iff]
  have hzip := List.forall₂_iff_zip.mp (forall₂_of_mapM hpicked)
  refine List.forall₂_iff_zip.mpr ⟨hzip.1, fun {entry value} hmem => ?_⟩
  obtain ⟨line, id, handle⟩ := entry
  have hline := (List.forall₂_iff_zip.mp hserves).2 (List.of_mem_zip hmem).1
  obtain ⟨values, index, hlookup, hindex, hvalue⟩ := valueOf_of_eq_ok (hzip.2 hmem)
  obtain ⟨before, rest, hsplit, -⟩ := List.lookup_eq_some_iff.mp hlookup
  obtain ⟨⟨key, found⟩, hentry, hkey, answer, hanswer, hreading⟩ :=
    hright (id, values) (hsplit ▸ List.mem_append_right _ List.mem_cons_self)
  have hfound := found_of_handlesOf hheld _ (mem_distinctHandles hentry)
  obtain rfl : id = key := hkey
  obtain rfl := Option.mem_unique (handle?_eq_some.mp hline).2 hfound
  obtain ⟨hlt, hoffset, -⟩ := List.idxOf?_eq_some_iff.mp hindex
  obtain rfl : values = answer.val := hanswer
  refine ⟨id, handle, hline, answer, index, hreading, ?_, hvalue⟩
  rw [List.getElem?_eq_getElem hlt, hoffset]

/-- A read of requested lines gives their values, unless a device refuses a report. -/
theorem getValues_cases (hsound : world.ledger.Sound) {chip : Chip}
    (hchip : world.chipOf group = .ok chip) (hrequested : world.allRequested group = true)
    {outcome : Except Error (List UInt8)} {after : World (Traced σ)}
    (h : world.getValues group = (outcome, after)) :
    (∃ read, outcome = .ok read) ∨ ∃ error handle asked, outcome = .error error ∧
      after.machine.trace = world.machine.trace ++ asked ∧
      Handle.reading handle (.error error) ∈ asked := by
  obtain ⟨held, hheld⟩ := handlesOf_of_allRequested hsound hchip hrequested
  unfold getValues at h
  rw [hheld] at h
  simp only at h
  split at h
  · next error mid hfetch =>
    obtain ⟨rfl, rfl⟩ := Prod.mk.inj h
    obtain ⟨_, _, refused, _, machine, -, rfl, -, htrace, -⟩ := fetchAll_failed hfetch
    exact Or.inr ⟨error, refused.2, _, rfl, htrace,
      List.mem_append_right _ (List.mem_singleton_self _)⟩
  · next fetched mid hfetch =>
    obtain ⟨values, hvalues⟩ := picked_of_fetched hsound hheld hfetch
    exact Or.inl ⟨values, (Prod.mk.inj h).1.symm.trans hvalues⟩

end World

/-! ### What passes between a client and its devices -/

namespace Client

variable {σ : Type} [Machine σ] {env : Traced σ → Traced σ → Prop}

/-- Writes and reads go by the places that lines have in the group that was requested. -/
structure PassesValues (env : Traced σ → Traced σ → Prop) (client : Client (Traced σ)) : Prop where
  writes : ∀ group values after, client.world.setValues group values = (.ok (), after) →
    ∃ id handle original buffer, client.world.Covers group id handle ∧
      client.GrantedTo env id original ∧ handle.offsets = original.offsets ∧
      after.machine.trace = client.world.machine.trace ++
        [.call handle.device (.setValues handle.file buffer) (.ok ())] ∧
      buffer.length = original.size ∧
      ∀ (position : Nat) offset, original.offsets[position]? = some offset →
        ∃ value, group.Gives values offset value ∧ buffer[position]? = some (normalize value)
  reads : ∀ group chip, client.world.chipOf group = .ok chip →
    client.world.allRequested group = true →
    ∀ outcome after, client.world.getValues group = (outcome, after) →
      ∃ asked, after.machine.trace = client.world.machine.trace ++ asked ∧
        ((∃ error handle, outcome = .error error ∧
          Handle.reading handle (.error error) ∈ asked) ∨
        ∃ read, outcome = .ok read ∧
          List.Forall₂ (fun line value => ∃ id handle,
            client.world.Picked asked line value id handle ∧
            (handle.kind = .values → ∃ original, client.GrantedTo env id original ∧
              handle.offsets = original.offsets)) group.lines read)

theorem Reachable.passesValues {client : Client (Traced σ)} (h : client.Reachable env) :
    client.PassesValues env where
  writes := by
    intro group values after hset
    obtain ⟨id, handle, ordered, called, hplan, hperform, rfl⟩ := World.setValues_eq_ok hset
    obtain ⟨hcount, hhandle, hordered⟩ := World.planValues_eq_ok hplan
    obtain ⟨hcovers, hlength, -⟩ := World.planValues_ok hplan
    obtain ⟨original, hgranted, hoffsets, -⟩ := traceable h hcovers.found hcovers.kind
    have hvalid := h.sound.desk.ledger.valid id handle hcovers.found
    refine ⟨id, handle, original, ordered, hcovers, hgranted, hoffsets, ?_, ?_, ?_⟩
    · obtain ⟨machine, rfl, htrace, -⟩ := World.perform_traced hperform
      exact htrace
    · rw [hlength, hoffsets, Group.offsets, List.length_map, Group.size]
    · intro position offset hposition
      rw [← hoffsets] at hposition
      have hmem := hcovers.complete offset (List.mem_of_getElem? hposition)
      obtain ⟨value, hgives⟩ := Group.exists_gives hcount hmem
      exact ⟨value, hgives, hgives.inRequestOrder hvalid.nodup hordered hposition⟩
  reads := by
    intro group chip hchip hrequested outcome after hread
    rcases World.getValues_cases h.sound.desk.ledger hchip hrequested hread with
      ⟨read, rfl⟩ | ⟨error, handle, asked, rfl, htrace, hmem⟩
    · obtain ⟨asked, htrace, hpicked⟩ := World.picked_of_getValues hread
      refine ⟨asked, htrace, Or.inr ⟨read, rfl, hpicked.imp ?_⟩⟩
      rintro line value ⟨id, handle, hline⟩
      refine ⟨id, handle, hline, fun hkind => ?_⟩
      obtain ⟨original, hgranted, hoffsets, -⟩ :=
        traceable h (World.handle?_eq_some.mp hline.serves).2 hkind
      exact ⟨original, hgranted, hoffsets⟩
    · exact ⟨asked, htrace, Or.inl ⟨error, handle, rfl, hmem⟩⟩

end Client

end GpioLines
