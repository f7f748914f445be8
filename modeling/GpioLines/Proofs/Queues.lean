import GpioLines.Bench.Session
import GpioLines.Proofs.OpenFiles

/-!
# Queues of bytes

What a simulator writes to a file waits in a queue. A reader that finds bytes takes them from the
front, as many as it asks for or as there are, and changes nothing else: the order of the other
bytes, the other files, the library and the simulators stay as they are.
-/

namespace GpioLines

/-- The file as it is when so many bytes more have been read. -/
def OpenFile.skip (file : OpenFile) (count : Nat) : OpenFile :=
  match file.source with
  | .socket pending connected => { file with source := .socket (pending.drop count) connected }
  | _ => file

theorem OpenFile.skip_skip (file : OpenFile) (first second : Nat) :
    (file.skip first).skip second = file.skip (first + second) := by
  obtain ⟨source, nonblocking, watched⟩ := file
  cases source with
  | socket pending connected => simp only [skip, List.drop_drop]
  | null => rfl
  | pipe rest => rfl
  | deadEnd => rfl

theorem OpenFile.skip_zero (file : OpenFile) : file.skip 0 = file := by
  obtain ⟨source, nonblocking, watched⟩ := file
  cases source <;> rfl

/-- What a single read makes of the bytes that wait. -/
def LineEvent.front (queue : List UInt8) : Except Error (Polled LineEvent) :=
  (ofRecord? (queue.take recordSize)).elim (.error (.event .ioFailure)) fun event =>
    .ok (.ready event)

namespace Bench

variable {bench : Bench} {file : FileId}

/-- What a reader of a file reads from. -/
def source? (bench : Bench) (file : FileId) : Option Source :=
  (bench.files.get? file).map OpenFile.source

/-- The bytes that wait in a file for a reader. -/
def queue (bench : Bench) (file : FileId) : List UInt8 :=
  match bench.source? file with
  | some (.socket pending _) => pending
  | _ => []

theorem queue_eq {opened : OpenFile} {bytes : List UInt8} {connected : Bool}
    (hopened : bench.files.get? file = some opened)
    (hsource : opened.source = .socket bytes connected) : bench.queue file = bytes := by
  rw [queue, source?, hopened, Option.map_some, hsource]

theorem exists_of_queue_ne_nil (h : bench.queue file ≠ []) :
    ∃ opened connected, bench.files.get? file = some opened ∧
      opened.source = .socket (bench.queue file) connected := by
  cases hopened : bench.files.get? file with
  | none =>
      rw [queue, source?, hopened] at h
      exact absurd rfl h
  | some opened =>
      cases hsource : opened.source with
      | socket pending connected =>
          refine ⟨opened, connected, rfl, ?_⟩
          rw [hsource, queue_eq hopened hsource]
      | null | pipe | deadEnd =>
          rw [queue, source?, hopened, Option.map_some, hsource] at h
          exact absurd rfl h

/-- A reader finds whatever there is in the queue without waiting. -/
theorem readiness_of_queue (h : bench.queue file ≠ []) : bench.readiness file = .input := by
  obtain ⟨opened, connected, hopened, hsource⟩ := exists_of_queue_ne_nil h
  have hnot : ((bench.queue file).isEmpty && connected) = false := by simp [h]
  rw [readiness, hopened, Option.elim_some, OpenFile.readiness, hsource]
  simp only [hnot, Bool.false_eq_true, if_false]

/-- So many bytes were taken from the front of one queue, and nothing else has changed. -/
structure Drained (bench : Bench) (file : FileId) (count : Nat) (after : Bench) : Prop where
  files : ∀ other, after.files.get? other =
    if other = file then (bench.files.get? other).map (·.skip count) else bench.files.get? other
  rest : after = { bench with files := after.files }

namespace Drained

variable {mid after : Bench} {count more : Nat}

theorem refl (bench : Bench) (file : FileId) : bench.Drained file 0 bench where
  files := by
    intro other
    have hsame : (·.skip 0 : OpenFile → OpenFile) = id := funext OpenFile.skip_zero
    rw [hsame, Option.map_id_fun, id_eq, ite_self]
  rest := rfl

theorem trans (h : bench.Drained file count mid) (hmore : mid.Drained file more after) :
    bench.Drained file (count + more) after where
  files := by
    intro other
    rw [hmore.files, h.files]
    split
    · simp only [Option.map_map, Function.comp_def, OpenFile.skip_skip]
    · rfl
  rest := by
    rw [hmore.rest, h.rest]

theorem queue (h : bench.Drained file count after) :
    after.queue file = (bench.queue file).drop count := by
  rw [Bench.queue, source?, h.files, if_pos rfl, Option.map_map, Bench.queue, source?]
  cases bench.files.get? file with
  | none => rw [Option.map_none, Option.map_none, List.drop_nil]
  | some opened =>
      obtain ⟨source, nonblocking, watched⟩ := opened
      cases source with
      | socket pending connected => rfl
      | null | pipe | deadEnd => exact List.drop_nil.symm

end Drained

/-- **A reader takes the bytes at the front**, no more than it asks for. -/
theorem read_queue (h : bench.queue file ≠ []) (limit : Nat) :
    (bench.read file limit).1 = .bytes ((bench.queue file).take limit) ∧
      bench.Drained file (min limit (bench.queue file).length) (bench.read file limit).2 := by
  obtain ⟨opened, connected, hopened, hsource⟩ := exists_of_queue_ne_nil h
  have hnot : ((bench.queue file).isEmpty && connected) = false := by simp [h]
  have hread : opened.read limit = (.bytes ((bench.queue file).take limit),
      opened.skip (min limit (bench.queue file).length)) := by
    have hdrop : (bench.queue file).drop (min limit (bench.queue file).length) =
        (bench.queue file).drop limit := by
      rcases Nat.le_total limit (bench.queue file).length with hle | hge
      · rw [Nat.min_eq_left hle]
      · rw [Nat.min_eq_right hge, List.drop_length, List.drop_eq_nil_of_le hge]
    rw [OpenFile.read, OpenFile.skip, hsource]
    simp only [hnot, Bool.false_eq_true, if_false, hdrop]
  rw [read_eq hopened, hread]
  refine ⟨rfl, fun other => ?_, rfl⟩
  refine (Table.get?_modify ..).trans ?_
  split
  · next heq => rw [heq, hopened, Option.map_some, Option.map_some]
  · rfl

end Bench

end GpioLines
