import GpioLines.Proofs.Devices
import GpioLines.Proofs.Exclusivity
import GpioLines.Proofs.Soundness

/-!
# The two sides of a loan

A simulated chip keeps a grant of each file that it lends. Whoever has the file keeps something of it
too: the library a handle, anybody else the bare number. The two sides know nothing of each other but
that number. They stay in step because a number is never given out twice, so a release of one file
ends one grant and no other.
-/

namespace GpioLines

/-- The grant of the file that a handle has. -/
structure Handle.Backed (handle : Handle) (grant : Grant) : Prop where
  file : grant.file = handle.file
  offsets : grant.offsets = handle.offsets
  kind : grant.edges.isSome = true ↔ handle.kind = .events

theorem Handle.Backed.of_sameGrant {a b : Handle} {grant : Grant} (h : b.Backed grant)
    (hsame : a.SameGrant b) : a.Backed grant := by
  obtain ⟨hkind, -, hfile, hoffsets⟩ := hsame
  exact ⟨h.file.trans hfile.symm, h.offsets.trans hoffsets.symm, by rw [hkind]; exact h.kind⟩

namespace Bench

variable {bench after : Bench}

def grants (bench : Bench) (index : Nat) : List Grant :=
  (bench.simulators[index]?).elim [] (·.grants)

/-- How many requests a simulated chip has granted so far; none as long as it is not there. -/
def served (bench : Bench) (index : Nat) : Nat :=
  (bench.simulators[index]?).elim 0 Simulator.served

/-- A line of a simulated chip. -/
def line? (bench : Bench) (index : Nat) (offset : Offset) : Option SimLine :=
  (bench.simulators[index]?).bind (·.line? offset)

theorem mem_grants {index : Nat} {grant : Grant} :
    grant ∈ bench.grants index ↔
      ∃ sim, bench.simulators[index]? = some sim ∧ grant ∈ sim.grants := by
  unfold grants
  cases bench.simulators[index]? <;> simp

theorem grants_of_eq {index : Nat} {sim : Simulator} (h : bench.simulators[index]? = some sim) :
    bench.grants index = sim.grants := by
  rw [grants, h, Option.elim_some]

/-- No simulated chip lends a line twice, and no number is out that could still be given out. -/
structure Exclusive (bench : Bench) : Prop where
  simulators : ∀ (index : Nat) (sim : Simulator), bench.simulators[index]? = some sim → sim.Exclusive
  fresh : ∀ index, ∀ grant ∈ bench.grants index, grant.file < bench.files.next

/-! ### Calls and releases -/

theorem Passed.grants {device : Device} {call : Call} {outcome : Outcome call}
    (h : Passed bench after device outcome) : after.grants = bench.grants := by
  funext index
  rw [Bench.grants, Bench.grants, h.simulators]

theorem Granted.grants {device : Device} {call : Call} {reply : call.Reply} {index : Nat}
    (h : Granted bench after device call reply index) (other : Nat) :
    after.grants other = bench.grants other ++
      if other = index then call.grants bench.files.next else [] := by
  obtain ⟨sim, given, changed, hsim, hperform, -, hafter⟩ := h.answered
  rw [Bench.grants, Bench.grants, hafter]
  by_cases heq : other = index
  · rw [if_pos heq, if_pos heq, heq, hsim]
    exact (Simulator.grants_perform hperform).1
  · rw [if_neg heq, if_neg heq, List.append_nil]

theorem FilesOnly.grants (h : FilesOnly bench after) : after.grants = bench.grants := by
  funext index
  rw [Bench.grants, Bench.grants, h.simulators]

theorem FilesOnly.served (h : FilesOnly bench after) : after.served = bench.served := by
  funext index
  rw [Bench.served, Bench.served, h.simulators]

theorem mem_grants_releaseAt {device : Device} {file : FileId} {index : Nat} {grant : Grant}
    (hmem : grant ∈ bench.grants index)
    (hother : device.simulator? = some index → grant.file ≠ file) :
    grant ∈ (releaseAt device file bench).grants index := by
  obtain ⟨sim, hsim, hgrant⟩ := mem_grants.mp hmem
  rw [mem_grants, simulators_releaseAt]
  split
  · next hindex =>
    refine ⟨sim.release file, by rw [hsim]; rfl, ?_⟩
    rcases sim.release_eq file with ⟨-, heq⟩ | ⟨_, -, -, -, heq⟩
    · rwa [heq]
    · rw [heq]
      exact List.mem_filter.mpr ⟨hgrant, by simpa using hother hindex⟩
  · exact ⟨sim, hsim, hgrant⟩

namespace Exclusive

/-- Changes of simulated chips one by one. -/
theorem of_simulators (h : bench.Exclusive) (hnext : bench.files.next ≤ after.files.next)
    (hafter : ∀ (index : Nat) (sim : Simulator), after.simulators[index]? = some sim →
      bench.simulators[index]? = some sim ∨
        sim.Exclusive ∧ ∀ grant ∈ sim.grants, grant.file < after.files.next) : after.Exclusive := by
  refine ⟨fun index sim hsim => ?_, fun index grant hgrant => ?_⟩
  · rcases hafter index sim hsim with hsame | ⟨hexclusive, -⟩
    · exact h.simulators index sim hsame
    · exact hexclusive
  · obtain ⟨sim, hsim, hmem⟩ := mem_grants.mp hgrant
    rcases hafter index sim hsim with hsame | ⟨-, hfresh⟩
    · exact (h.fresh index grant (mem_grants.mpr ⟨sim, hsame, hmem⟩)).trans_le hnext
    · exact hfresh grant hmem

theorem perform (h : bench.Exclusive) {device : Device} {call : Call} {outcome : Outcome call}
    (hperform : Bench.perform device call bench = (outcome, after)) : after.Exclusive := by
  rcases perform_cases hperform with hpassed | ⟨reply, index, -, hgranted⟩
  · exact h.of_simulators hpassed.next_le fun index sim hsim =>
      Or.inl (by rwa [← hpassed.simulators])
  · obtain ⟨sim, given, changed, hsim, hcall, -, hafter⟩ := hgranted.answered
    have hold : ∀ grant ∈ sim.grants, grant.file < bench.files.next := fun grant hgrant =>
      h.fresh index grant (mem_grants.mpr ⟨sim, hsim, hgrant⟩)
    have hexclusive := (h.simulators index sim hsim).perform hold call
    rw [hcall] at hexclusive
    refine h.of_simulators (by rw [hgranted.next]; omega) fun other found hfound => ?_
    rw [hafter] at hfound
    split at hfound
    · obtain rfl := Option.some.inj hfound
      refine Or.inr ⟨hexclusive, fun grant hgrant => ?_⟩
      rw [(Simulator.grants_perform hcall).1] at hgrant
      rw [hgranted.next, ← Call.length_grants device bench.files.next]
      rcases List.mem_append.mp hgrant with hgrant | hgrant
      · exact (hold grant hgrant).trans_le (Nat.le_add_right _ _)
      · rw [Call.file_of_mem_grants hgrant]
        exact Nat.lt_add_of_pos_right (List.length_pos_of_mem hgrant)
    · exact Or.inl hfound

theorem releaseAt (h : bench.Exclusive) (device : Device) (file : FileId) :
    (Bench.releaseAt device file bench).Exclusive := by
  have hnext := next_releaseAt device file bench
  refine h.of_simulators hnext.ge fun index sim hsim => ?_
  rw [simulators_releaseAt] at hsim
  split at hsim
  · obtain ⟨old, hold, rfl⟩ := Option.map_eq_some_iff.mp hsim
    refine Or.inr ⟨(h.simulators index old hold).release file, fun grant hgrant => ?_⟩
    rw [hnext]
    refine h.fresh index grant (mem_grants.mpr ⟨old, hold, ?_⟩)
    rcases old.release_eq file with ⟨-, heq⟩ | ⟨_, -, -, -, heq⟩
    · rwa [heq] at hgrant
    · rw [heq] at hgrant
      exact List.mem_of_mem_filter hgrant
  · exact Or.inl hsim

theorem filesOnly (h : bench.Exclusive) (hfiles : FilesOnly bench after) : after.Exclusive :=
  h.of_simulators hfiles.next.ge fun _ _ hsim => Or.inl (by rwa [← hfiles.simulators])

end Exclusive

end Bench

/-! ### Loans -/

/-- What the simulated chips of a bench have lent to the library, as these handles, and to others. -/
structure Lending (bench : Bench) (handles : Table Handle) (lent : List (Device × FileId)) :
    Prop where
  backed : ∀ id handle, handles.get? id = some handle → ∀ index,
    handle.device.simulator? = some index → ∃ grant ∈ bench.grants index, handle.Backed grant
  distinct : ∀ a b first second index, handles.get? a = some first →
    handles.get? b = some second → first.device.simulator? = some index →
    second.device.simulator? = some index → first.file = second.file → a = b
  apart : ∀ id handle, handles.get? id = some handle → ∀ entry ∈ lent, ∀ index,
    handle.device.simulator? = some index → entry.1.simulator? = some index →
    entry.2 ≠ handle.file
  lent_lt : ∀ entry ∈ lent, ∀ index, entry.1.simulator? = some index →
    entry.2 < bench.files.next

namespace Lending

variable {bench after : Bench} {handles : Table Handle} {lent : List (Device × FileId)}

theorem file_lt (h : Lending bench handles lent) (hbench : bench.Exclusive) {id : HandleId}
    {handle : Handle} (hget : handles.get? id = some handle) {index : Nat}
    (hindex : handle.device.simulator? = some index) : handle.file < bench.files.next := by
  obtain ⟨grant, hgrant, hbacked⟩ := h.backed id handle hget index hindex
  rw [← hbacked.file]
  exact hbench.fresh index grant hgrant

/-- As long as no grant ends, nothing happens to a loan. -/
theorem of_le (h : Lending bench handles lent) (hnext : bench.files.next ≤ after.files.next)
    (hgrants : ∀ index, ∀ grant ∈ bench.grants index, grant ∈ after.grants index) :
    Lending after handles lent where
  backed := by
    intro id handle hget index hindex
    obtain ⟨grant, hgrant, hbacked⟩ := h.backed id handle hget index hindex
    exact ⟨grant, hgrants index grant hgrant, hbacked⟩
  distinct := h.distinct
  apart := h.apart
  lent_lt := fun entry hentry index hindex => (h.lent_lt entry hentry index hindex).trans_le hnext

theorem modifyHandle (h : Lending bench handles lent) {id : HandleId} {f : Handle → Handle}
    (hf : ∀ handle, handles.get? id = some handle → (f handle).SameGrant handle) :
    Lending bench (handles.modify id f) lent := by
  have hold : ∀ {key : HandleId} {found : Handle}, (handles.modify id f).get? key = some found →
      ∃ old, handles.get? key = some old ∧ found.SameGrant old := by
    intro key found hget
    rw [Table.get?_modify] at hget
    split at hget
    · next hkey =>
      obtain ⟨old, hold, rfl⟩ := Option.map_eq_some_iff.mp hget
      exact ⟨old, hold, hf old (hkey ▸ hold)⟩
    · exact ⟨found, hget, .refl found⟩
  refine ⟨?_, ?_, ?_, h.lent_lt⟩
  · intro key found hget index hindex
    obtain ⟨old, hget, hsame⟩ := hold hget
    rw [hsame.2.1] at hindex
    obtain ⟨grant, hgrant, hbacked⟩ := h.backed key old hget index hindex
    exact ⟨grant, hgrant, hbacked.of_sameGrant hsame⟩
  · intro a b first second index ha hb hfirst hsecond hfile
    obtain ⟨olda, ha, hsamea⟩ := hold ha
    obtain ⟨oldb, hb, hsameb⟩ := hold hb
    rw [hsamea.2.1] at hfirst
    rw [hsameb.2.1] at hsecond
    rw [hsamea.2.2.1, hsameb.2.2.1] at hfile
    exact h.distinct a b olda oldb index ha hb hfirst hsecond hfile
  · intro key found hget entry hentry index hindex hlent
    obtain ⟨old, hget, hsame⟩ := hold hget
    rw [hsame.2.1] at hindex
    rw [hsame.2.2.1]
    exact h.apart key old hget entry hentry index hindex hlent

/-- The library is lent a file. -/
theorem addHandle (h : Lending bench handles lent) (hbench : bench.Exclusive)
    (hfresh : handles.Fresh) {handle : Handle}
    (hnew : ∀ index, handle.device.simulator? = some index →
      handle.file = bench.files.next ∧ ∃ grant ∈ after.grants index, handle.Backed grant)
    (hnext : bench.files.next ≤ after.files.next)
    (hgrants : ∀ index, ∀ grant ∈ bench.grants index, grant ∈ after.grants index) :
    Lending after (handles.add handle) lent := by
  have hle := h.of_le hnext hgrants
  -- no file in use has the new number
  have hother : ∀ {id : HandleId} {old : Handle} {index : Nat}, handles.get? id = some old →
      old.device.simulator? = some index → handle.device.simulator? = some index →
      old.file ≠ handle.file := by
    intro id old index hget hold hindex heq
    have hlt := h.file_lt hbench hget hold
    rw [heq, (hnew index hindex).1] at hlt
    exact Nat.lt_irrefl _ hlt
  refine ⟨?_, ?_, ?_, hle.lent_lt⟩
  · intro id found hget index hindex
    rw [Table.get?_add hfresh] at hget
    split at hget
    · obtain rfl := Option.some.inj hget
      exact (hnew index hindex).2
    · exact hle.backed id found hget index hindex
  · intro a b first second index ha hb hfirst hsecond hfile
    rw [Table.get?_add hfresh] at ha hb
    split at ha
    · next hida =>
      obtain rfl := Option.some.inj ha
      split at hb
      · next hidb => rw [hida, hidb]
      · exact absurd hfile.symm (hother hb hsecond hfirst)
    · split at hb
      · obtain rfl := Option.some.inj hb
        exact absurd hfile (hother ha hfirst hsecond)
      · exact h.distinct a b first second index ha hb hfirst hsecond hfile
  · intro id found hget entry hentry index hindex hlent
    rw [Table.get?_add hfresh] at hget
    split at hget
    · obtain rfl := Option.some.inj hget
      rw [(hnew index hindex).1]
      exact Nat.ne_of_lt (h.lent_lt entry hentry index hlent)
    · exact h.apart id found hget entry hentry index hindex hlent

/-- Somebody else is lent a file. -/
theorem addLent (h : Lending bench handles lent) (hbench : bench.Exclusive) {device : Device}
    {file : FileId}
    (hnew : ∀ index, device.simulator? = some index →
      file = bench.files.next ∧ bench.files.next < after.files.next)
    (hnext : bench.files.next ≤ after.files.next)
    (hgrants : ∀ index, ∀ grant ∈ bench.grants index, grant ∈ after.grants index) :
    Lending after handles (lent ++ [(device, file)]) := by
  have hle := h.of_le hnext hgrants
  refine ⟨hle.backed, hle.distinct, ?_, ?_⟩
  · intro id handle hget entry hentry index hindex hlent
    rcases List.mem_append.mp hentry with hentry | hentry
    · exact h.apart id handle hget entry hentry index hindex hlent
    · obtain rfl := List.mem_singleton.mp hentry
      rw [(hnew index hlent).1]
      exact Nat.ne_of_gt (h.file_lt hbench hget hindex)
  · intro entry hentry index hlent
    rcases List.mem_append.mp hentry with hentry | hentry
    · exact hle.lent_lt entry hentry index hlent
    · obtain rfl := List.mem_singleton.mp hentry
      rw [(hnew index hlent).1]
      exact (hnew index hlent).2

/-- The library gives a file back. -/
theorem eraseHandle (h : Lending bench handles lent) {id : HandleId} {handle : Handle}
    (hget : handles.get? id = some handle) (hnext : bench.files.next ≤ after.files.next)
    (hgrants : ∀ index, ∀ grant ∈ bench.grants index,
      (handle.device.simulator? = some index → grant.file ≠ handle.file) →
      grant ∈ after.grants index) :
    Lending after (handles.erase id) lent := by
  have hkept : ∀ {key : HandleId} {found : Handle}, (handles.erase id).get? key = some found →
      handles.get? key = some found ∧ key ≠ id := by
    intro key found hfound
    rw [Table.get?_erase] at hfound
    split at hfound
    · cases hfound
    · next hne => exact ⟨hfound, hne⟩
  refine ⟨?_, ?_, ?_, ?_⟩
  · intro key found hfound index hindex
    obtain ⟨hfound, hne⟩ := hkept hfound
    obtain ⟨grant, hgrant, hbacked⟩ := h.backed key found hfound index hindex
    refine ⟨grant, hgrants index grant hgrant fun hsame heq => hne ?_, hbacked⟩
    exact h.distinct key id found handle index hfound hget hindex hsame (hbacked.file.symm.trans heq)
  · intro a b first second index ha hb
    exact h.distinct a b first second index (hkept ha).1 (hkept hb).1
  · intro key found hfound
    exact h.apart key found (hkept hfound).1
  · intro entry hentry index hlent
    exact (h.lent_lt entry hentry index hlent).trans_le hnext

/-- Somebody else gives a file back, and may still have it open. -/
theorem giveBack (h : Lending bench handles lent) {device : Device} {file : FileId}
    (hmem : (device, file) ∈ lent) (hnext : bench.files.next ≤ after.files.next)
    (hgrants : ∀ index, ∀ grant ∈ bench.grants index,
      (device.simulator? = some index → grant.file ≠ file) → grant ∈ after.grants index) :
    Lending after handles lent := by
  refine ⟨?_, h.distinct, h.apart, ?_⟩
  · intro id handle hget index hindex
    obtain ⟨grant, hgrant, hbacked⟩ := h.backed id handle hget index hindex
    refine ⟨grant, hgrants index grant hgrant fun hsame heq => ?_, hbacked⟩
    exact h.apart id handle hget _ hmem index hindex hsame (heq.symm.trans hbacked.file)
  · intro entry hentry index hlent
    exact (h.lent_lt entry hentry index hlent).trans_le hnext

theorem of_subset (h : Lending bench handles lent) {fewer : List (Device × FileId)}
    (hsubset : ∀ entry ∈ fewer, entry ∈ lent) : Lending bench handles fewer where
  backed := h.backed
  distinct := h.distinct
  apart := fun id handle hget entry hentry => h.apart id handle hget entry (hsubset entry hentry)
  lent_lt := fun entry hentry => h.lent_lt entry (hsubset entry hentry)

end Lending

end GpioLines
