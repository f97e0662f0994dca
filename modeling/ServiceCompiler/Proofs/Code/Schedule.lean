import Mathlib.Data.List.Forall2

namespace ServiceCompiler

open List

/-!
# Tasks that complete in any order

Independent tasks may run side by side when each has a slot of its own for what it makes.  A run is given by
the order in which the tasks complete.

* `completeTask` — one task completes: its slot is filled, or the run fails.
* `slotsInOrder` — a whole run.
* `slotsInOrder_eq_ok_iff` — if each task completes once, a run succeeds exactly when the tasks succeed one
  after the other, and then every run fills the slots in the same way.
-/

theorem exists_ok_of_toBool {ε α : Type} {x : Except ε α} (h : x.toBool = true) : ∃ a, x = .ok a := by
  cases x with
  | error e => cases h
  | ok a => exact ⟨a, rfl⟩

/-! ### Tasks one after the other -/

section Sequence

variable {α β ε : Type} {f : α → Except ε β}

theorem mapM_cons_eq_ok_iff {x : α} {xs : List α} {zs : List β} :
    (x :: xs).mapM f = .ok zs ↔ ∃ y ys, f x = .ok y ∧ xs.mapM f = .ok ys ∧ zs = y :: ys := by
  rw [mapM_cons]
  constructor
  · intro h
    -- A failure of the first task or of a later one is a failure of the sequence.
    rcases hx : f x with e | y
    · rw [hx] at h
      cases h
    rcases hxs : xs.mapM f with e | ys
    · rw [hx, hxs] at h
      cases h
    rw [hx, hxs] at h
    exact ⟨y, ys, rfl, rfl, (Except.ok.inj h).symm⟩
  · rintro ⟨y, ys, hx, hxs, rfl⟩
    rw [hx, hxs]
    rfl

/-- A sequence of tasks succeeds by the success of each of them. -/
theorem mapM_eq_ok_iff {xs : List α} {ys : List β} :
    xs.mapM f = .ok ys ↔ Forall₂ (fun x y => f x = .ok y) xs ys := by
  induction xs generalizing ys with
  | nil =>
    rw [mapM_nil, forall₂_nil_left_iff]
    exact ⟨fun h => (Except.ok.inj h).symm, fun h => h ▸ rfl⟩
  | cons x xs ih =>
    rw [mapM_cons_eq_ok_iff, forall₂_cons_left_iff]
    simp only [ih]

/-- What a sequence of tasks makes is made by its tasks. -/
theorem mem_iff_of_mapM {xs : List α} {ys : List β} (h : xs.mapM f = .ok ys) {y : β} :
    y ∈ ys ↔ ∃ x ∈ xs, f x = .ok y := by
  induction mapM_eq_ok_iff.1 h with
  | nil => simp
  | cons hx hxs ih =>
    rw [mem_cons, ih (mapM_eq_ok_iff.2 hxs), exists_mem_cons_iff, hx, Except.ok.injEq, eq_comm]

/-- In a sequence that succeeds, each task does. -/
theorem exists_ok_of_mapM {xs : List α} {ys : List β} (h : xs.mapM f = .ok ys) {x : α} (hx : x ∈ xs) :
    ∃ y, f x = .ok y := by
  induction mapM_eq_ok_iff.1 h with
  | nil => cases hx
  | @cons _ y _ _ hy hxs ih =>
    rcases mem_cons.1 hx with rfl | hx
    · exact ⟨y, hy⟩
    · exact ih (mapM_eq_ok_iff.2 hxs) hx

theorem exists_mapM_eq_ok {xs : List α} (h : ∀ x ∈ xs, ∃ y, f x = .ok y) : ∃ ys, xs.mapM f = .ok ys := by
  simp only [mapM_eq_ok_iff]
  induction xs with
  | nil => exact ⟨[], .nil⟩
  | cons x xs ih =>
    obtain ⟨hx, hxs⟩ := forall_mem_cons.1 h
    obtain ⟨y, hy⟩ := hx
    obtain ⟨ys, hys⟩ := ih hxs
    exact ⟨y :: ys, .cons hy hys⟩

end Sequence

/-! ### Tasks side by side -/

variable {α β ε : Type} (run : α → Except ε (Option β)) (tasks : List α)

/-- The slots once the task at place `i` is complete: its own slot is filled, unless it fails. -/
def completeTask (slots : List (Option β)) (i : Nat) : Except ε (List (Option β)) :=
  match tasks[i]? with
  | none => .ok slots
  | some task => (run task).map (slots.set i)

/-- The slots after the tasks completed in the given order.  The first failure ends the run. -/
def slotsInOrder (order : List Nat) : Except ε (List (Option β)) :=
  order.foldlM (completeTask run tasks) (replicate tasks.length none)

/-- The slots with those of the given places filled from what the tasks make. -/
def fillSlots (made : List (Option β)) (slots : List (Option β)) (order : List Nat) : List (Option β) :=
  order.foldl (fun slots i => slots.set i (made.getD i none)) slots

variable {run tasks} {made : List (Option β)}

/-- **The step.** A task that completes fills its own slot. -/
theorem completeTask_eq (h : Forall₂ (fun task a => run task = .ok a) tasks made)
    (slots : List (Option β)) {i : Nat} (hi : i < tasks.length) :
    completeTask run tasks slots i = .ok (slots.set i (made.getD i none)) := by
  obtain ⟨hlength, hrun⟩ := forall₂_iff_get.1 h
  have hi' : i < made.length := hlength ▸ hi
  have htask : run tasks[i] = .ok made[i] := hrun i hi hi'
  have hmade : made.getD i none = made[i] := by simp [hi']
  rw [completeTask, getElem?_eq_getElem hi, hmade]
  show (run tasks[i]).map _ = _
  rw [htask]
  rfl

/-- **The run.** Tasks that complete fill their own slots. -/
theorem foldlM_completeTask_eq (h : Forall₂ (fun task a => run task = .ok a) tasks made)
    {order : List Nat} (horder : ∀ i ∈ order, i < tasks.length) (slots : List (Option β)) :
    order.foldlM (completeTask run tasks) slots = .ok (fillSlots made slots order) := by
  induction order generalizing slots with
  | nil => rfl
  | cons i order ih =>
    obtain ⟨hi, hrest⟩ := forall_mem_cons.1 horder
    rw [foldlM_cons, completeTask_eq h slots hi]
    exact ih hrest _

/-- A slot that is filled holds what its task made, no matter when; the others stay as they are. -/
theorem getElem?_fillSlots (slots : List (Option β)) (order : List Nat) {j : Nat}
    (hj : j < slots.length) :
    (fillSlots made slots order)[j]? = if j ∈ order then some (made.getD j none) else slots[j]? := by
  induction order generalizing slots with
  | nil => simp [fillSlots]
  | cons i order ih =>
    have hset : j < (slots.set i (made.getD i none)).length := by simpa using hj
    have hstep : fillSlots made slots (i :: order) =
        fillSlots made (slots.set i (made.getD i none)) order := rfl
    rw [hstep, ih _ hset]
    by_cases horder : j ∈ order
    · rw [if_pos horder, if_pos (mem_cons_of_mem i horder)]
    · rw [if_neg horder]
      by_cases hij : i = j
      · subst hij
        rw [getElem?_set_self hj, if_pos mem_cons_self]
      · have hnotMem : j ∉ i :: order := by
          rw [mem_cons]
          exact fun hmem => hmem.elim (fun heq => hij heq.symm) horder
        rw [getElem?_set_ne hij, if_neg hnotMem]

theorem length_fillSlots (slots : List (Option β)) (order : List Nat) :
    (fillSlots made slots order).length = slots.length := by
  induction order generalizing slots with
  | nil => rfl
  | cons i order ih =>
    rw [show fillSlots made slots (i :: order) =
      fillSlots made (slots.set i (made.getD i none)) order from rfl, ih, length_set]

/-- When all slots are filled, it does not matter in which order. -/
theorem fillSlots_eq {order : List Nat} (horder : ∀ i < made.length, i ∈ order) :
    fillSlots made (replicate made.length none) order = made := by
  have hlength : (fillSlots made (replicate made.length none) order).length = made.length := by
    rw [length_fillSlots, length_replicate]
  refine ext_getElem? fun j => ?_
  rcases Nat.lt_or_ge j made.length with hj | hj
  · rw [getElem?_fillSlots _ _ (by simpa using hj), if_pos (horder j hj)]
    simp [hj]
  · rw [getElem?_eq_none (Nat.le_trans (Nat.le_of_eq hlength) hj), getElem?_eq_none hj]

/-- A run that succeeds has seen no task fail. -/
theorem run_ok_of_foldlM {order : List Nat} {slots final : List (Option β)}
    (h : order.foldlM (completeTask run tasks) slots = .ok final) :
    ∀ i ∈ order, ∀ task, tasks[i]? = some task → ∃ a, run task = .ok a := by
  induction order generalizing slots with
  | nil => simp
  | cons i order ih =>
    rw [foldlM_cons] at h
    cases hfirst : completeTask run tasks slots i with
    | error e => simp [hfirst, bind, Except.bind] at h
    | ok next =>
      rw [hfirst] at h
      rw [forall_mem_cons]
      refine ⟨fun task htask => ?_, ih h⟩
      rw [completeTask, htask] at hfirst
      cases hrun : run task with
      | error e => simp [hrun, Except.map] at hfirst
      | ok a => exact ⟨a, rfl⟩

/-- **Any order will do.** When each task completes once, a run succeeds exactly when the tasks succeed one
    after the other, with the same slots. -/
theorem slotsInOrder_eq_ok_iff {order : List Nat} (horder : order.Perm (range tasks.length))
    {slots : List (Option β)} :
    slotsInOrder run tasks order = .ok slots ↔ tasks.mapM run = .ok slots := by
  have hplaces : ∀ i, i ∈ order ↔ i < tasks.length := fun i => by
    rw [horder.mem_iff, mem_range]
  have hmade : ∀ {made}, tasks.mapM run = .ok made → slotsInOrder run tasks order = .ok made := by
    intro made hmapM
    have hforall := mapM_eq_ok_iff.1 hmapM
    have hlength := hforall.length_eq
    rw [slotsInOrder, foldlM_completeTask_eq hforall (fun i hi => (hplaces i).1 hi), hlength,
      fillSlots_eq fun i hi => (hplaces i).2 (hlength ▸ hi)]
  constructor
  · intro hslots
    obtain ⟨made, hmapM⟩ : ∃ made, tasks.mapM run = .ok made := by
      refine exists_mapM_eq_ok fun task htask => ?_
      obtain ⟨i, hi, rfl⟩ := getElem_of_mem htask
      exact run_ok_of_foldlM hslots i ((hplaces i).2 hi) _ (getElem?_eq_getElem hi)
    rwa [← hslots, hmade hmapM]
  · exact hmade

end ServiceCompiler
