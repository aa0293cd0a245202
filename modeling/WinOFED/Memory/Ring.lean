import Mathlib

/-! Doubly linked circular lists.

The head of a list is a node like the others that is not counted as an entry. -/
namespace WinOFED.Memory
open List
variable {β : Type*}

/-- The links of all nodes. -/
@[ext]
structure Ring (β : Type*) where
  next : β → β
  prev : β → β

namespace Ring
variable [DecidableEq β]

/-- Put a node in front of another one. -/
def insertBefore (ring : Ring β) (place new : β) : Ring β :=
  let before := ring.prev place
  { next := fun node =>
      if node = before then new else if node = new then place else ring.next node
    prev := fun node =>
      if node = place then new else if node = new then before else ring.prev node }

/-- Take a node out. Its own links are not changed. -/
def remove (ring : Ring β) (node : β) : Ring β :=
  { next := fun other => if other = ring.prev node then ring.next node else ring.next other
    prev := fun other => if other = ring.next node then ring.prev node else ring.prev other }

/-- The nodes met from `node` on up to `stop`, as far as the bound allows. -/
def walk (ring : Ring β) (stop : β) : Nat → β → List β
  | 0, _ => []
  | bound + 1, node => if node = stop then [] else node :: ring.walk stop bound (ring.next node)

omit [DecidableEq β] in
/-- The links lead from `start` through the nodes to `stop`, and back. -/
def Segment (ring : Ring β) : β → List β → β → Prop
  | start, [], stop => ring.next start = stop ∧ ring.prev stop = start
  | start, node :: nodes, stop =>
      ring.next start = node ∧ ring.prev node = start ∧ ring.Segment node nodes stop

/-- The node after the first part of a list. -/
def following (after : List β) (stop : β) : β := after.head?.getD stop

variable {stop start : β} {ring : Ring β} {nodes after before : List β}

section

omit [DecidableEq β]

theorem Segment.congr {changed : Ring β} (segment : ring.Segment start nodes stop)
    (next : ∀ node ∈ start :: nodes, changed.next node = ring.next node)
    (prev : ∀ node ∈ nodes ++ [stop], changed.prev node = ring.prev node) :
    changed.Segment start nodes stop := by
  induction nodes generalizing start with
  | nil =>
    exact ⟨(next start (by simp)).trans segment.1, (prev stop (by simp)).trans segment.2⟩
  | cons node nodes ih =>
    obtain ⟨forth, back, rest⟩ := segment
    refine ⟨(next start (by simp)).trans forth, (prev node (by simp)).trans back, ih rest ?_ ?_⟩
    · exact (forall_mem_cons.mp next).2
    · exact (forall_mem_cons.mp prev).2

/-- A list can be cut at any of its nodes. -/
theorem segment_append {node : β} :
    ring.Segment start (before ++ node :: after) stop ↔
      ring.Segment start before node ∧ ring.Segment node after stop := by
  induction before generalizing start with
  | nil => simp [Segment, and_assoc]
  | cons first before ih => simp [Segment, ih, and_assoc]

/-- The links at the end of a list. -/
theorem Segment.last (segment : ring.Segment start nodes stop) :
    ring.prev stop = (start :: nodes).getLast (by simp) ∧
      ring.next ((start :: nodes).getLast (by simp)) = stop := by
  induction nodes generalizing start with
  | nil => exact ⟨segment.2, segment.1⟩
  | cons node nodes ih => simpa using ih segment.2.2

/-- The link between two parts of a list. -/
theorem Segment.next_last (segment : ring.Segment start (before ++ after) stop) :
    ring.next ((start :: before).getLast (by simp)) = following after stop := by
  cases after with
  | nil =>
    rw [append_nil] at segment
    exact segment.last.2
  | cons node after => exact (segment_append.mp segment).1.last.2

end

/-- Only the last link has to change for a list to end elsewhere. -/
theorem Segment.retarget {changed : Ring β} {target : β} (segment : ring.Segment start nodes stop)
    (nodup : (start :: nodes).Nodup)
    (next : ∀ node ∈ start :: nodes, changed.next node =
      if node = (start :: nodes).getLast (by simp) then target else ring.next node)
    (prev : ∀ node ∈ nodes, changed.prev node = ring.prev node)
    (back : changed.prev target = (start :: nodes).getLast (by simp)) :
    changed.Segment start nodes target := by
  induction nodes generalizing start with
  | nil => exact ⟨(next start (by simp)).trans (if_pos rfl), back⟩
  | cons node nodes ih =>
    have inner : start ≠ (node :: nodes).getLast (by simp) := fun same =>
      (nodup_cons.mp nodup).1 (same ▸ getLast_mem _)
    refine ⟨((next start (by simp)).trans (if_neg inner)).trans segment.1,
      (prev node (by simp)).trans segment.2.1,
      ih segment.2.2 (nodup_cons.mp nodup).2 ?_ ?_ back⟩
    · exact (forall_mem_cons.mp next).2
    · exact (forall_mem_cons.mp prev).2

omit [DecidableEq β] in
theorem getLast_not_mem (nodup : (start :: (before ++ after)).Nodup) :
    (start :: before).getLast (by simp) ∉ after :=
  @List.disjoint_of_nodup_append _ (start :: before) after nodup _ (List.getLast_mem _)

attribute [local simp] Ring.insertBefore Ring.remove

/-- A new node between two parts of a list. -/
theorem Segment.insertBefore {new : β} (segment : ring.Segment start (before ++ after) stop)
    (nodup : (start :: (before ++ after)).Nodup) (apart : stop ∉ before ++ after)
    (fresh : new ∉ start :: (before ++ after)) (other : new ≠ stop) :
    (ring.insertBefore (following after stop) new).Segment start (before ++ new :: after) stop := by
  have early : (start :: before).Nodup := nodup.sublist ((sublist_append_left before after).cons_cons start)
  have freshEarly : new ∉ start :: before := fun listed => fresh (mem_append_left after listed)
  -- Up to the new node everything is as before, except for the last link.
  have first : ∀ place, ring.Segment start before place → place ∉ before → new ≠ place →
      (ring.insertBefore place new).Segment start before new := by
    intro place part outside distinct
    obtain ⟨back, _⟩ := part.last
    refine part.retarget early (fun node listed => ?_) (fun node listed => ?_) ?_
    · have notNew : node ≠ new := ne_of_mem_of_not_mem listed freshEarly
      simp [back, notNew]
    · have notNew : node ≠ new := ne_of_mem_of_not_mem (mem_cons_of_mem _ listed) freshEarly
      have notPlace : node ≠ place := ne_of_mem_of_not_mem listed outside
      simp [notPlace, notNew]
    · simp [back, distinct]
  have newLast : ∀ place, ring.Segment start before place → new ≠ ring.prev place := by
    intro place part same
    rw [part.last.1] at same
    exact freshEarly (same ▸ getLast_mem _)
  cases after with
  | nil =>
    rw [append_nil] at segment apart
    refine segment_append.mpr ⟨first stop segment apart other, ?_, ?_⟩
    · simp [following, newLast stop segment]
    · simp [following]
  | cons node after =>
    obtain ⟨part, rest⟩ := segment_append.mp segment
    obtain ⟨_, lateNodup, disjoint⟩ := nodup_append.mp (nodup_cons.mp nodup).2
    have outside : node ∉ before := fun listed => disjoint node listed node (by simp) rfl
    have freshLate : new ∉ node :: after := fun listed =>
      fresh (mem_cons_of_mem _ (mem_append_right _ listed))
    have distinct : new ≠ node := ne_of_not_mem_cons freshLate
    refine segment_append.mpr ⟨first node part outside distinct, ?_, ?_, rest.congr ?_ ?_⟩
    · simp [following, newLast node part]
    · simp [following]
    · intro other listed
      have notNew : other ≠ new := ne_of_mem_of_not_mem listed freshLate
      have notLast : other ≠ ring.prev node := by
        rw [part.last.1]
        exact ne_of_mem_of_not_mem listed (getLast_not_mem nodup)
      simp [following, notNew, notLast]
    · intro later listed
      have notNew : later ≠ new := by
        rcases mem_append.mp listed with late | final
        · exact ne_of_mem_of_not_mem (mem_cons_of_mem _ late) freshLate
        · exact mem_singleton.mp final ▸ other.symm
      have notNode : later ≠ node := by
        rcases mem_append.mp listed with late | final
        · exact ne_of_mem_of_not_mem late (nodup_cons.mp lateNodup).1
        · simp_all
      simp [following, notNew, notNode]

/-- A list without one of its nodes. -/
theorem Segment.remove {node : β} (segment : ring.Segment start (before ++ node :: after) stop)
    (nodup : (start :: (before ++ node :: after)).Nodup) (apart : stop ∉ before ++ node :: after) :
    (ring.remove node).Segment start (before ++ after) stop := by
  obtain ⟨part, rest⟩ := segment_append.mp segment
  have early : (start :: before).Nodup := nodup.sublist ((sublist_append_left before _).cons_cons start)
  obtain ⟨_, lateNodup, disjoint⟩ := nodup_append.mp (nodup_cons.mp nodup).2
  obtain ⟨back, forth⟩ := part.last
  have first : ∀ place, ring.next node = place → place ∉ before →
      (ring.remove node).Segment start before place := by
    rintro place rfl outside
    refine part.retarget early (fun other listed => ?_) (fun other listed => ?_) ?_
    · simp [back]
    · have notPlace : other ≠ ring.next node := ne_of_mem_of_not_mem listed outside
      simp [notPlace]
    · simp [back]
  cases after with
  | nil =>
    rw [append_nil]
    exact first stop rest.1 fun listed => apart (mem_append_left _ listed)
  | cons place after =>
    obtain ⟨ahead, behind, later⟩ := rest
    refine segment_append.mpr ⟨first place ahead fun listed => disjoint place listed place (by simp) rfl,
      later.congr ?_ ?_⟩
    · intro other listed
      have notLast : other ≠ ring.prev node := by
        rw [back]
        exact ne_of_mem_of_not_mem (mem_cons_of_mem _ listed) (getLast_not_mem nodup)
      simp [notLast]
    · intro other listed
      have notPlace : other ≠ ring.next node := by
        rw [ahead]
        rcases mem_append.mp listed with late | final
        · exact ne_of_mem_of_not_mem late (nodup_cons.mp (nodup_cons.mp lateNodup).2).1
        · simp_all
      simp [notPlace]

/-- The entries are what a walk from the first one meets. -/
theorem Segment.walk (segment : ring.Segment start nodes stop) (apart : stop ∉ nodes) {bound : Nat}
    (enough : nodes.length ≤ bound) : ring.walk stop bound (ring.next start) = nodes := by
  induction nodes generalizing start bound with
  | nil =>
    cases bound with
    | zero => rfl
    | succ bound => simp [Ring.walk, segment.1]
  | cons node nodes ih =>
    cases bound with
    | zero => simp at enough
    | succ bound =>
      obtain ⟨forth, _, rest⟩ := segment
      have distinct : node ≠ stop := by
        rintro rfl
        exact apart (by simp)
      have later := ih rest (fun listed => apart (mem_cons_of_mem _ listed)) (Nat.le_of_succ_le_succ enough)
      simp [Ring.walk, forth, distinct, later]

end Ring
end WinOFED.Memory
