import GpioLines.Proofs.Interference

/-!
# What a thread does in one step

Each step has one of the effects that other threads can bear, and leaves its thread with the knowledge
that belongs to its next stage. There is one lemma for each kind of job, with one case for each stage.
-/

namespace GpioLines

variable {σ : Type} {world : World σ}

theorem World.lines_ne_nil_of_checkRequest {group : Group} {config : RequestConfig}
    {defaults : Option (List UInt8)} {reply : Unit}
    (h : world.checkRequest group config defaults = .ok reply) : group.lines ≠ [] := by
  rw [checkRequest, bind_eq_ok] at h
  obtain ⟨chip, hchip, -⟩ := h
  exact (serves_of_chipOf hchip).nonempty

theorem Board.Clearing.cleared {board : Board} {chip : ChipId} (h : board.Clearing chip []) :
    board.Cleared chip where
  closed := by
    rw [h.closed]
    nofun
  free := fun line hline => (h.listed line hline).resolve_right List.not_mem_nil

theorem World.clearing_knownLines {chip : ChipId} (h : world.board.closed? chip = some true) :
    world.board.Clearing chip (world.knownLines chip) where
  closed := h
  onChip := fun line hline => by
    unfold knownLines at hline
    cases hget : world.chips[chip]? with
    | none =>
        rw [hget] at hline
        cases hline
    | some found =>
        rw [hget] at hline
        obtain ⟨offset, -, rfl⟩ := List.mem_map.mp hline
        rfl
  listed := fun line hline => by
    by_cases hknown : line ∈ world.knownLines chip
    · exact Or.inr hknown
    · exact Or.inl (slot_of_not_known (hline ▸ hknown))

/-- A step that is of no concern to others, and attaches nothing. -/
theorem effect_of_quiet {after : World σ} {guard? : Option ChipId} {next : Thread}
    (h : after.board = world.board) : Effect world.board guard? next none after.board := by
  rw [h]
  exact .quiet

theorem Demand.conduct_of_quiet {demand : Demand} {taken : List Line} {after : World σ}
    {guard? : Option ChipId} {next : Requesting} (h : after.board = world.board)
    (hnext : next.Sound demand.group world.board taken) :
    Effect world.board guard? (.request demand next) none after.board ∧
      next.Sound demand.group after.board (taken ++ Touch.takes none) := by
  refine ⟨effect_of_quiet h, ?_⟩
  rw [h, Touch.takes, List.append_nil]
  exact hnext

/-! ### What a request knows next -/

namespace Requesting.Sound

variable {group : Group} {board : Board} {taken before rest : List Line} {line : Line}
  {device : Device} {granted : List HandleId}

theorem scanned (h : (Requesting.scanning device before (line :: rest)).Sound group board taken)
    (hfree : board.slot line = .free) (hnew : line ∉ before) :
    (Requesting.scanning device (before ++ [line]) rest).Sound group board taken := by
  obtain ⟨htaken, hserves, hsplit, hnodup, hbefore⟩ := h
  refine ⟨htaken, hserves, ?_, ?_, ?_⟩
  · rw [List.append_assoc, List.singleton_append]
    exact hsplit
  · exact List.nodup_append.mpr ⟨hnodup, List.nodup_singleton line, fun a ha b hb heq =>
      hnew (List.mem_singleton.mp hb ▸ heq ▸ ha)⟩
  · intro other hother
    rcases List.mem_append.mp hother with hother | hother
    · exact hbefore other hother
    · rw [List.mem_singleton.mp hother]
      exact hfree

theorem offers (h : (Requesting.scanning device before []).Sound group board taken) :
    board.Offers device group := by
  obtain ⟨-, hserves, hsplit, hnodup, hfree⟩ := h
  rw [List.append_nil] at hsplit
  exact ⟨hserves, hsplit ▸ hfree, hsplit ▸ hnodup⟩

theorem acquired (h : (Requesting.acquiring device granted (line :: rest)).Sound group board taken)
    (id : HandleId) :
    (Requesting.acquiring device (granted ++ [id]) rest).Sound group board taken := by
  obtain ⟨htaken, hoffers, done, hsplit, hlength⟩ := h
  refine ⟨htaken, hoffers, done ++ [line], ?_, ?_⟩
  · rw [List.append_assoc, List.singleton_append]
    exact hsplit
  · rw [List.length_append, List.length_append, hlength]
    rfl

/-- Lines that were offered and are granted now can be attached. -/
theorem attaching {pairs : List (Line × HandleId)} (htaken : taken = [])
    (hoffers : board.Offers device group) (hpairs : pairs.map (·.1) = group.lines) :
    (Requesting.attaching pairs).Sound group board taken := by
  refine ⟨?_, ⟨device, hoffers.toServes⟩, ?_, ?_⟩
  · rw [htaken, hpairs, List.nil_append]
  · rw [hpairs]
    exact hoffers.nodup
  · rw [hpairs]
    exact hoffers.free

theorem attached {id : HandleId} {pairs : List (Line × HandleId)}
    (h : (Requesting.attaching ((line, id) :: pairs)).Sound group board taken) (slot : Slot) :
    (Requesting.attaching pairs).Sound group (board.withSlot line slot) (taken ++ [line]) := by
  obtain ⟨htaken, ⟨device, hserves⟩, hnodup, hfree⟩ := h
  rw [List.map_cons] at htaken hnodup hfree
  rw [List.nodup_cons] at hnodup
  refine ⟨?_, ⟨device, hserves.nonempty, hserves.isOpen, hserves.device⟩, hnodup.2, ?_⟩
  · rw [List.append_assoc, List.singleton_append]
    exact htaken
  · intro other hother
    have hne : other ≠ line := fun heq => hnodup.1 (heq ▸ hother)
    rw [Board.slot_withSlot, if_neg hne]
    exact hfree other (List.mem_cons_of_mem line hother)

end Requesting.Sound

variable [Machine σ]

/-! ### Requests -/

namespace Demand

variable {demand : Demand} {taken : List Line}

theorem conduct (hgroup : demand.group.WellFormed) {stage : Requesting}
    (h : stage.Sound demand.group world.board taken) (shared : HandleId → Bool) :
    Effect world.board (Thread.request demand stage).guard?
        (.request demand (demand.step shared world stage).1) (demand.step shared world stage).2.2
        (demand.step shared world stage).2.1.board ∧
      (demand.step shared world stage).1.Sound demand.group (demand.step shared world stage).2.1.board
        (taken ++ Touch.takes (demand.step shared world stage).2.2) := by
  cases stage with
  | start =>
      simp only [step]
      split
      · exact conduct_of_quiet (World.board_of_chips_eq rfl) h
      · next hcheck =>
        exact conduct_of_quiet rfl ⟨h, World.lines_ne_nil_of_checkRequest hcheck⟩
  | waiting => exact conduct_of_quiet rfl h
  | entered =>
      simp only [step]
      split
      · exact conduct_of_quiet (World.board_of_chips_eq rfl) h.1
      · next chip hchip =>
        exact conduct_of_quiet rfl ⟨h.1, World.serves_of_chipOf hchip, List.nil_append _,
          List.nodup_nil, fun line hline => absurd hline List.not_mem_nil⟩
  | scanning device before rest =>
      cases rest with
      | nil =>
          apply conduct_of_quiet rfl
          change Requesting.Sound _ _ _ (if demand.config.type.isEvent then _ else _)
          split
          · exact ⟨h.1, h.offers, [], List.nil_append _, rfl⟩
          · exact ⟨h.1, h.offers⟩
      | cons line rest =>
          simp only [step]
          split
          · exact conduct_of_quiet (World.board_of_chips_eq rfl) h.1
          · next hcan =>
            simp only [Bool.or_eq_true, Bool.not_eq_true', List.contains_iff_mem, not_or,
              Bool.not_eq_false, World.isFree_iff] at hcan
            exact conduct_of_quiet rfl (h.scanned hcan.1 hcan.2)
  | asking device =>
      obtain ⟨htaken, hoffers⟩ := h
      simp only [step]
      split
      · next hperform => exact conduct_of_quiet (World.board_of_perform hperform) htaken
      · next file after hperform =>
        have hpairs : (demand.group.lines.map (·, after.handles.next)).map (·.1) =
            demand.group.lines := by
          rw [List.map_map]
          exact List.map_id _
        exact conduct_of_quiet ((World.board_openHandle ..).trans (World.board_of_perform hperform))
          (.attaching htaken hoffers hpairs)
  | acquiring device granted rest =>
      cases rest with
      | nil =>
          obtain ⟨htaken, hoffers, done, hsplit, hlength⟩ := h
          rw [List.append_nil] at hsplit
          have hpairs : (demand.group.lines.zip granted).map (·.1) = demand.group.lines := by
            apply List.map_fst_zip
            rw [hlength, hsplit]
          exact conduct_of_quiet rfl (.attaching htaken hoffers hpairs)
      | cons line rest =>
          simp only [step]
          split
          · next after hperform =>
            have hboard : after.board = world.board := World.board_of_perform hperform
            split
            · exact conduct_of_quiet hboard h.1
            · exact conduct_of_quiet ((World.board_note ..).trans hboard) h.1
          · next hperform =>
            exact conduct_of_quiet
              ((World.board_openHandle ..).trans (World.board_of_perform hperform)) (h.acquired _)
  | attaching pairs =>
      cases pairs with
      | nil =>
          apply conduct_of_quiet (World.board_note ..)
          have htaken := h.1
          rwa [List.map_nil, List.append_nil] at htaken
      | cons pair rest =>
          obtain ⟨line, id⟩ := pair
          have ⟨htaken, ⟨device, hserves⟩, _, hfree⟩ := h
          have hmember : line ∈ demand.group.lines :=
            htaken ▸ List.mem_append_right taken List.mem_cons_self
          have hopen := hserves.isOpen line hmember
          have hguard : (Thread.request demand (.attaching ((line, id) :: rest))).guard? =
              some line.chip := hgroup.chip?_eq hmember
          have hboard : (world.attach line id demand.kind).board =
              world.board.withSlot line (.holding id demand.kind) :=
            World.board_attach hopen id demand.kind
          simp only [step, hboard, hguard]
          exact ⟨.attached rfl (hfree line List.mem_cons_self) hopen (Slot.holding_ne_free _ _)
            hmember, h.attached _⟩
  | undoing granted error =>
      cases granted with
      | nil => exact conduct_of_quiet rfl h
      | cons id rest => exact conduct_of_quiet (World.board_letGo ..) h
  | refreshing rest =>
      cases rest with
      | nil => exact conduct_of_quiet rfl h
      | cons line rest => exact conduct_of_quiet (World.board_update ..) h
  | finished outcome => exact conduct_of_quiet rfl h

end Demand

/-! ### Releases -/

theorem Group.conduct {group : Group} (hgroup : group.WellFormed) {stage : Releasing}
    (h : stage.Sound group world.board) (shared : HandleId → Bool) :
    Effect world.board (Thread.release group stage).guard?
        (.release group (group.releaseStep shared world stage).1)
        (group.releaseStep shared world stage).2.2 (group.releaseStep shared world stage).2.1.board ∧
      (group.releaseStep shared world stage).1.Sound group
        (group.releaseStep shared world stage).2.1.board := by
  cases stage with
  | start =>
      simp only [releaseStep]
      refine ⟨.quiet, ?_⟩
      split
      · trivial
      · next hclosed =>
        intro line hline
        refine ⟨hline, fun _ hopen => hclosed ?_⟩
        obtain ⟨chip, hchip⟩ := World.closed?_eq_false.mp hopen
        obtain ⟨first, hfirst, heq⟩ := Option.map_eq_some_iff.mp (hgroup.chip?_eq hline)
        rw [hfirst, Option.any_some, World.isOpen, heq, hchip]
        rfl
  | waiting => exact ⟨.quiet, fun line hline => ⟨hline, fun hguarded => by cases hguarded⟩⟩
  | detaching guarded held rest =>
      cases rest with
      | nil => exact ⟨.quiet, trivial⟩
      | cons line rest =>
          obtain ⟨hmember, hclosed⟩ := h line List.mem_cons_self
          simp only [releaseStep, World.board_detach]
          refine ⟨.freed ?_ hmember, fun other hother => h other (List.mem_cons_of_mem line hother)⟩
          cases guarded with
          | false => exact Or.inr (hclosed rfl)
          | true => exact Or.inl (hgroup.chip?_eq hmember)
  | dropping guarded count held =>
      cases held with
      | nil =>
          simp only [releaseStep]
          split
          · exact ⟨.quiet, trivial⟩
          · refine ⟨effect_of_quiet (World.board_note ..), ?_⟩
            split <;> trivial
      | cons id rest => exact ⟨effect_of_quiet (World.board_letGo ..), trivial⟩
  | refreshing rest =>
      cases rest with
      | nil => exact ⟨.quiet, trivial⟩
      | cons line rest => exact ⟨effect_of_quiet (World.board_update ..), trivial⟩
  | finished => exact ⟨.quiet, trivial⟩

/-! ### Closing -/

theorem World.conduct_close {chip : ChipId} {stage : Closing} (h : stage.Sound chip world.board)
    (hentered : stage = .entered → world.board.closed? chip = some true → world.board.Cleared chip)
    (shared : HandleId → Bool) :
    Effect world.board (Thread.close chip stage).guard?
        (.close chip (world.closeStep chip shared stage).1) (world.closeStep chip shared stage).2.2
        (world.closeStep chip shared stage).2.1.board ∧
      (world.closeStep chip shared stage).1.Sound chip
        (world.closeStep chip shared stage).2.1.board := by
  cases stage with
  | waiting => exact ⟨.quiet, trivial⟩
  | entered =>
      simp only [closeStep]
      split
      · next hnone =>
        refine ⟨.quiet, World.cleared_of_none ?_⟩
        simp only [board, ledger, hnone, Option.map_none]
      · next found hget =>
        have hchip : world.board.closed? chip = some found.closed := by
          simp only [board, ledger, hget, Option.map_some]
        split
        · next hclosed =>
          rw [hclosed] at hchip
          exact ⟨.quiet, hentered rfl hchip⟩
        · next hopen =>
          rw [Bool.eq_false_of_not_eq_true hopen] at hchip
          rw [board_markClosed hchip]
          refine ⟨.shut rfl hchip rfl, ?_⟩
          exact (Board.closed?_shut ..).trans (if_pos rfl)
  | marked name => exact ⟨.quiet, World.clearing_knownLines h⟩
  | invalidating name rest =>
      cases rest with
      | nil =>
          have hcleared : (world.note (.closedChip name)).board.Cleared chip := by
            rw [board_note]
            exact h.cleared
          exact ⟨effect_of_quiet (board_note ..), hcleared⟩
      | cons line rest =>
          have hchip : line.chip = chip := h.onChip line List.mem_cons_self
          have hclearing : (world.board.withSlot line .free).Clearing chip rest := by
            refine ⟨h.closed, fun other hother => h.onChip other (List.mem_cons_of_mem line hother),
              fun other hother => ?_⟩
            rw [Board.slot_withSlot]
            split
            · exact Or.inl rfl
            · next hne =>
              exact (h.listed other hother).imp_right fun hmem =>
                (List.mem_cons.mp hmem).resolve_left hne
          simp only [closeStep, board_detachStale]
          refine ⟨.freed (Or.inl (congrArg some hchip.symm)) hchip, ?_⟩
          cases (world.detach line).1 <;> exact hclearing
  | discarding name id rest =>
      refine ⟨effect_of_quiet (board_letGo ..), ?_⟩
      have hclearing : (world.letGo shared id []).board.Clearing chip rest := by
        rw [board_letGo]
        exact h
      exact hclearing
  | finished => exact ⟨.quiet, h⟩

/-! ### Threads -/

/-- **Every step does what others can bear.** -/
theorem Thread.conduct {thread : Thread} {taken : List Line} (h : thread.Sound world.board taken)
    (hcleared : ∀ chip, thread = .close chip .entered → world.board.closed? chip = some true →
      world.board.Cleared chip) (shared : HandleId → Bool) :
    Effect world.board thread.guard? (thread.step shared world).1 (thread.step shared world).2.2
        (thread.step shared world).2.1.board ∧
      (thread.step shared world).1.Sound (thread.step shared world).2.1.board
        (taken ++ Touch.takes (thread.step shared world).2.2) := by
  cases thread with
  | request demand stage =>
      obtain ⟨heffect, hsound⟩ := demand.conduct h.1 h.2 shared
      exact ⟨heffect, h.1, hsound⟩
  | release group stage =>
      obtain ⟨heffect, hsound⟩ := group.conduct h.1 h.2 shared
      exact ⟨heffect, h.1, hsound⟩
  | close chip stage =>
      exact World.conduct_close h (fun hstage => hcleared chip (hstage ▸ rfl)) shared

end GpioLines
