import Mathlib

/-! A free list threaded through the cells of an array.

Each free cell holds the index of the next one; the list ends at an index `stop`
that is no cell. -/
namespace WinOFED.Memory

/-- The links from `head` on spell the list of free cells and end at `stop`. -/
def Threaded (link : Nat → Nat) (stop : Nat) : Nat → List Nat → Prop
  | head, [] => head = stop
  | head, cell :: rest => head = cell ∧ cell ≠ stop ∧ Threaded link stop (link cell) rest

/-- Follow the links from `head` for at most `fuel` cells. -/
def walkLinks (link : Nat → Nat) (stop : Nat) : Nat → Nat → List Nat
  | 0, _ => []
  | fuel + 1, head => if head = stop then [] else head :: walkLinks link stop fuel (link head)

namespace Threaded
variable {link : Nat → Nat} {stop head : Nat} {free : List Nat}

theorem congr {other : Nat → Nat} (same : ∀ cell ∈ free, other cell = link cell)
    (threaded : Threaded link stop head free) : Threaded other stop head free := by
  induction free generalizing head with
  | nil => exact threaded
  | cons cell rest ih =>
    obtain ⟨start, inside, later⟩ := threaded
    refine ⟨start, inside, ?_⟩
    rw [same cell List.mem_cons_self]
    exact ih ((List.forall_mem_cons.mp same).2) later

section
variable (threaded : Threaded link stop head free)
include threaded

/-- A cell off the list is put in front of it. -/
theorem push {other : Nat → Nat} {cell : Nat}
    (linked : other cell = head) (inside : cell ≠ stop)
    (same : ∀ next ∈ free, other next = link next) : Threaded other stop cell (cell :: free) := by
  refine ⟨rfl, inside, ?_⟩
  rw [linked]
  exact threaded.congr same

/-- The list ends exactly at `stop`. -/
theorem eq_nil_iff : free = [] ↔ head = stop := by
  cases free with
  | nil => exact iff_of_true rfl threaded
  | cons cell rest =>
    obtain ⟨rfl, inside, -⟩ := threaded
    simp [inside]

/-- The first cell is taken off. -/
theorem pop (some : head ≠ stop) : ∃ rest, free = head :: rest ∧ Threaded link stop (link head) rest := by
  cases free with
  | nil => exact absurd threaded some
  | cons cell rest =>
    obtain ⟨rfl, -, later⟩ := threaded
    exact ⟨rest, rfl, later⟩

end

/-- Consecutive cells that each link to the next. -/
theorem range' {start count : Nat}
    (linked : ∀ cell, start ≤ cell → cell < start + count → link cell = cell + 1) :
    Threaded link (start + count) start (List.range' start count) := by
  induction count generalizing start with
  | zero => rfl
  | succ count ih =>
    refine ⟨rfl, by omega, ?_⟩
    rw [linked start (Nat.le_refl _) (by omega)]
    have later := @ih (start + 1) fun cell low high => linked cell (by omega) (by omega)
    rwa [Nat.add_assoc, Nat.add_comm 1] at later

/-- Walking the links finds the list. -/
theorem walkLinks_eq {fuel : Nat} (threaded : Threaded link stop head free)
    (enough : free.length ≤ fuel) : walkLinks link stop fuel head = free := by
  induction free generalizing head fuel with
  | nil =>
    cases fuel with
    | zero => rfl
    | succ fuel => exact if_pos threaded
  | cons cell rest ih =>
    obtain ⟨rfl, inside, later⟩ := threaded
    cases fuel with
    | zero => simp at enough
    | succ fuel =>
      rw [walkLinks, if_neg inside, ih later (Nat.le_of_succ_le_succ enough)]

end Threaded
end WinOFED.Memory
