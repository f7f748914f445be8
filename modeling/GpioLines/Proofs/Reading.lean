import GpioLines.Proofs.Operations

/-!
# A read finds every value

A read fetches the values of each handle once and then picks the value of each member out of what
its handle reported. In a sound world the picking cannot fail: every handle was fetched, what it
reported has one value a line, and the member is one of these lines. So if a read fails, no value was
missing; the members were not all requested, or a device refused.
-/

namespace GpioLines

theorem mapM_eq_ok {ε α β : Type} {f : α → Except ε β} {items : List α}
    (h : ∀ item ∈ items, ∃ result, f item = .ok result) :
    ∃ results, items.mapM f = .ok results := by
  induction items with
  | nil => exact ⟨[], rfl⟩
  | cons item rest ih =>
      obtain ⟨result, hitem⟩ := h item List.mem_cons_self
      obtain ⟨results, hrest⟩ := ih fun other hother => h other (List.mem_cons_of_mem _ hother)
      refine ⟨result :: results, ?_⟩
      rw [List.mapM_cons, hitem, hrest]
      rfl

namespace World

variable {σ : Type} {world : World σ} {group : Group}

/-- No handle is left out when the handles are listed once each. -/
theorem exists_mem_distinctHandles {handles : List (HandleId × Handle)} {held : HandleId × Handle}
    (h : held ∈ handles) : ∃ entry ∈ distinctHandles handles, entry.1 = held.1 := by
  have hfold : ∀ (rest seen : List (HandleId × Handle)),
      (∃ entry ∈ seen, entry.1 = held.1) ∨ held ∈ rest →
      ∃ entry ∈ rest.foldl
        (fun seen held => if seen.any (·.1 == held.1) then seen else seen ++ [held]) seen,
        entry.1 = held.1 := by
    intro rest
    induction rest with
    | nil => exact fun seen hmem => hmem.resolve_right List.not_mem_nil
    | cons first rest ih =>
        intro seen hmem
        rw [List.foldl_cons]
        apply ih _
        rcases hmem with ⟨entry, hentry, hid⟩ | hmem
        · refine Or.inl ⟨entry, ?_, hid⟩
          split
          · exact hentry
          · exact List.mem_append_left _ hentry
        · rcases List.mem_cons.mp hmem with rfl | hmem
          · apply Or.inl
            split
            · next hany =>
              obtain ⟨entry, hentry, hid⟩ := List.any_eq_true.mp hany
              exact ⟨entry, hentry, by simpa using hid⟩
            · exact ⟨held, List.mem_append_right _ (List.mem_singleton_self held), rfl⟩
          · exact Or.inr hmem
  exact hfold handles [] (Or.inr h)

/-- A member of a group finds its value among what the handles reported. -/
theorem valueOf_eq_ok (hsound : world.ledger.Sound) {held : List (HandleId × Handle)}
    (hheld : world.handlesOf group = .ok held) {fetched : List (HandleId × List UInt8)}
    (hfetched : List.Forall₂ (fun entry result => result.1 = entry.1 ∧
      result.2.length = entry.2.offsets.length) (distinctHandles held) fetched)
    {line : Line} {entry : HandleId × Handle} (hmem : (line, entry) ∈ group.lines.zip held) :
    ∃ value, valueOf fetched line entry = .ok value := by
  obtain ⟨id, handle⟩ := entry
  have hserves := (List.forall₂_iff_zip.mp (forall₂_of_handlesOf hheld).2).2 hmem
  obtain ⟨hholds, hget⟩ := handle?_eq_some.mp hserves
  obtain ⟨hleft, hright⟩ := exists_of_forall₂ hfetched
  have hlisted : line.offset ∈ handle.offsets := by
    obtain ⟨found, hfound, -, hoffset⟩ := hsound.slot_open line id hholds
    obtain rfl := Option.mem_unique hget hfound
    exact hoffset
  obtain ⟨index, hindex⟩ := Option.isSome_iff_exists.mp (List.isSome_idxOf?.mpr hlisted)
  obtain ⟨hlt, -⟩ := List.idxOf?_eq_some_iff.mp hindex
  -- the handle was fetched
  obtain ⟨values, hvalues⟩ : ∃ values, fetched.lookup id = some values := by
    obtain ⟨entry, hentry, hid⟩ := exists_mem_distinctHandles (List.of_mem_zip hmem).2
    obtain ⟨result, hresult, hkey, -⟩ := hleft entry hentry
    refine Option.isSome_iff_exists.mp (List.lookup_isSome_iff.mpr ⟨result, hresult, ?_⟩)
    simpa [hkey] using hid.symm
  -- and it reported one value a line
  have hlength : values.length = handle.offsets.length := by
    obtain ⟨before, after, hsplit, -⟩ := List.lookup_eq_some_iff.mp hvalues
    obtain ⟨⟨key, found⟩, hentry, hkey, hlength⟩ :=
      hright (id, values) (hsplit ▸ List.mem_append_right _ List.mem_cons_self)
    have hfound := found_of_handlesOf hheld _ (mem_distinctHandles hentry)
    obtain rfl : id = key := hkey
    obtain rfl := Option.mem_unique hget hfound
    exact hlength
  have hin : index < values.length := by
    rw [hlength]
    exact hlt
  refine ⟨values[index], ?_⟩
  unfold valueOf
  rw [hvalues, Handle.indexOf?, hindex]
  simp only [List.getElem?_eq_getElem hin]

variable [Machine σ]

/-- What was fetched is one list of values a handle, as long as the lines of the handle. -/
theorem forall₂_of_fetchAll {held : List (HandleId × Handle)}
    {fetched : List (HandleId × List UInt8)} {after : World σ}
    (h : world.fetchAll held = (.ok fetched, after)) :
    List.Forall₂ (fun entry result => result.1 = entry.1 ∧
      result.2.length = entry.2.offsets.length) held fetched := by
  induction held generalizing world fetched after with
  | nil =>
      obtain rfl : [] = fetched := Except.ok.inj (Prod.mk.inj h).1
      exact .nil
  | cons entry rest ih =>
      unfold fetchAll at h
      simp only at h
      split at h
      · cases (Prod.mk.inj h).1
      · next values mid hperform =>
        split at h
        · cases (Prod.mk.inj h).1
        · next more last hrest =>
          obtain rfl := Except.ok.inj (Prod.mk.inj h).1
          exact .cons ⟨rfl, values.property.trans List.length_replicate⟩ (ih hrest)

/-- **A read finds every value.** -/
theorem picked_of_fetched (hsound : world.ledger.Sound) {held : List (HandleId × Handle)}
    (hheld : world.handlesOf group = .ok held) {fetched : List (HandleId × List UInt8)}
    {after : World σ} (hfetched : world.fetchAll (distinctHandles held) = (.ok fetched, after)) :
    ∃ values, (group.lines.zip held).mapM (fun (line, held) => valueOf fetched line held) =
      .ok values :=
  mapM_eq_ok fun _ hmem => valueOf_eq_ok hsound hheld (forall₂_of_fetchAll hfetched) hmem

end World

end GpioLines
