import WinOFED.Mlx4.Bitmap
import WinOFED.Transition.Machine

/-! The runs of the index allocator: the ranges handed out and not yet returned. -/
namespace WinOFED.Mlx4
open WinOFED.Memory WinOFED.Transition List Nat

/-- A range handed out, by its first number. -/
structure Grant where
  obj : Nat
  cnt : Nat
  align : Nat
  deriving DecidableEq, Repr

/-- A bitmap with the ranges that were handed out. -/
structure BitmapSys where
  bitmap : Bitmap
  grants : List Grant
  deriving DecidableEq, Repr

/-- The calls. A release is of one of the ranges handed out, by its place in their list. -/
inductive BitmapCall
  | alloc
  | allocRange (cnt order : Nat)
  | free (place : Nat)
  | freeRange (place : Nat)
  deriving DecidableEq, Repr

namespace BitmapSys

/-- The outcome of an allocation. -/
def granted (sys : BitmapSys) (result : Nat × Bitmap) (cnt align : Nat) : BitmapSys :=
  ⟨result.2, if result.1 = ulongMax then sys.grants else ⟨result.1, cnt, align⟩ :: sys.grants⟩

/-- A range has a positive `int` as its length and a power of two as its alignment. -/
def next (sys : BitmapSys) : BitmapCall → Option BitmapSys
  | .alloc => some (sys.granted sys.bitmap.alloc 1 1)
  | .allocRange cnt order =>
      if 0 < cnt ∧ cnt < 2 ^ 31 ∧ order < 31 then
        some (sys.granted (sys.bitmap.allocRange cnt (2 ^ order)) cnt (2 ^ order))
      else none
  | .free place => do
      let grant ← sys.grants[place]?
      if grant.cnt = 1 then some ⟨sys.bitmap.free grant.obj, sys.grants.eraseIdx place⟩ else none
  | .freeRange place => do
      let grant ← sys.grants[place]?
      some ⟨sys.bitmap.freeRange grant.obj grant.cnt, sys.grants.eraseIdx place⟩

/-- A bitmap that nothing was handed out of. -/
def machine (bitmap : Bitmap) : Machine BitmapSys BitmapCall := Machine.ofNext (· = ⟨bitmap, []⟩) next

/-- The number that is about to be handed out is not the one that stands for a failure. -/
def AllocCareful (bitmap : Bitmap) : Prop :=
  bitmap.search.1 < bitmap.effectiveMax → bitmap.search.1 ||| bitmap.search.2 ≠ ulongMax

/-- The same, and the tag does not spoil the alignment. -/
def Careful (sys : BitmapSys) : BitmapCall → Prop
  | .alloc => AllocCareful sys.bitmap
  | .allocRange cnt order =>
      if cnt = 1 ∧ order = 0 then AllocCareful sys.bitmap
      else sys.bitmap.searchRange cnt (2 ^ order) < sys.bitmap.effectiveMax →
        sys.bitmap.searchRange cnt (2 ^ order) ||| sys.bitmap.top ≠ ulongMax ∧
          2 ^ order ∣ sys.bitmap.top
  | .free _ | .freeRange _ => True

/-- Alignments up to `max`. -/
def Modest (sys : BitmapSys) : BitmapCall → Prop
  | .allocRange _ order => 2 ^ order ≤ sys.bitmap.max
  | _ => True

instance (sys : BitmapSys) (call : BitmapCall) : Decidable (Modest sys call) := by
  cases call <;> unfold Modest <;> infer_instance

/-- The number of clear bits from `low` to `high`. -/
def clearCount (table : List (BitVec 32)) (low high : Nat) : Nat :=
  ((Finset.Ico low high).filter fun bit => testBit table bit = false).card

/-- The positions of two ranges have no common bit. -/
def Apart (max : Nat) (first second : Grant) : Prop :=
  first.obj % max + first.cnt ≤ second.obj % max ∨ second.obj % max + second.cnt ≤ first.obj % max

/-- What the allocator promises. -/
structure Sound (reserved : Nat) (sys : BitmapSys) : Prop where
  apart : sys.grants.Pairwise (Apart sys.bitmap.max)
  inside : ∀ grant ∈ sys.grants, reserved ≤ grant.obj % sys.bitmap.max ∧
    grant.obj % sys.bitmap.max + grant.cnt ≤ sys.bitmap.effectiveMax
  aligned : ∀ grant ∈ sys.grants, grant.align ∣ grant.obj
  avail : sys.bitmap.avail = clearCount sys.bitmap.table reserved sys.bitmap.effectiveMax

/-- The promise with what carries it from call to call. -/
structure Kept (order mask reserved range : Nat) (sys : BitmapSys) : Prop extends Sound reserved sys where
  small : order ≤ 31
  max : sys.bitmap.max = 2 ^ order
  mask_eq : sys.bitmap.mask = mask
  ranges : sys.bitmap.effectiveMax = range
  effective : sys.bitmap.effectiveMax ≤ 2 ^ order
  reserves : reserved ≤ sys.bitmap.effectiveMax
  words : 2 ^ order ≤ 32 * sys.bitmap.table.length
  tag : 2 ^ order ∣ sys.bitmap.top
  masked : sys.bitmap.top &&& mask = sys.bitmap.top
  last : sys.bitmap.last < sys.bitmap.effectiveMax ∨ sys.bitmap.last = 0
  counted : ∀ grant ∈ sys.grants, 0 < grant.cnt
  bits : ∀ bit < sys.bitmap.effectiveMax, testBit sys.bitmap.table bit = true ↔
    bit < reserved ∨ ∃ grant ∈ sys.grants,
      grant.obj % 2 ^ order ≤ bit ∧ bit < grant.obj % 2 ^ order + grant.cnt

/-! ## Numbers and counts -/

/-- The tag stands above the position. -/
theorem or_tag {order pos top : Nat} (below : pos < 2 ^ order) (tag : 2 ^ order ∣ top) :
    pos ||| top = top + pos := by
  obtain ⟨rounds, rfl⟩ := tag
  rw [Nat.or_comm, two_pow_add_eq_or_of_lt below]

theorem dvd_and {order value mask : Nat} (divides : 2 ^ order ∣ value) : 2 ^ order ∣ value &&& mask := by
  rw [dvd_iff_mod_eq_zero, ← and_two_pow_sub_one_eq_mod] at divides ⊢
  rw [Nat.and_assoc, Nat.and_comm mask, ← Nat.and_assoc, divides, zero_and]

theorem clearCount_le (table : List (BitVec 32)) (low high : Nat) : clearCount table low high ≤ high := by
  calc clearCount table low high ≤ (Finset.Ico low high).card := Finset.card_filter_le _ _
    _ ≤ high := by rw [card_Ico]; exact sub_le _ _

/-- Two tables that differ in a run, which is clear in one and set in the other. -/
theorem clearCount_of_run {before after : List (BitVec 32)} {low high pos cnt : Nat} (above : low ≤ pos)
    (below : pos + cnt ≤ high)
    (run : ∀ bit, pos ≤ bit → bit < pos + cnt → testBit before bit = false ∧ testBit after bit = true)
    (rest : ∀ bit, ¬ (pos ≤ bit ∧ bit < pos + cnt) → testBit after bit = testBit before bit) :
    clearCount before low high = clearCount after low high + cnt := by
  have split : (Finset.Ico low high).filter (fun bit => testBit before bit = false) =
      (Finset.Ico low high).filter (fun bit => testBit after bit = false) ∪ Finset.Ico pos (pos + cnt) := by
    ext bit
    simp only [Finset.mem_filter, Finset.mem_Ico, Finset.mem_union]
    by_cases here : pos ≤ bit ∧ bit < pos + cnt
    · obtain ⟨clear, set⟩ := run bit here.1 here.2
      have within : low ≤ bit ∧ bit < high := by omega
      simp [clear, set, here, within]
    · rw [rest bit here]
      simp [here]
  have disjoint : Disjoint ((Finset.Ico low high).filter (fun bit => testBit after bit = false))
      (Finset.Ico pos (pos + cnt)) := by
    rw [Finset.disjoint_left]
    intro bit clear here
    rw [Finset.mem_Ico] at here
    rw [Finset.mem_filter, (run bit here.1 here.2).2] at clear
    exact Bool.noConfusion clear.2
  unfold clearCount
  rw [split, Finset.card_union_of_disjoint disjoint, card_Ico, Nat.add_sub_cancel_left]

namespace Kept
variable {order mask reserved range : Nat} {sys : BitmapSys}

section
variable (kept : Kept order mask reserved range sys)
include kept

theorem effective_le : sys.bitmap.effectiveMax ≤ 2 ^ 31 :=
  Nat.le_trans kept.effective (Nat.pow_le_pow_right (by decide) kept.small)

/-- The tag may be any multiple of `max` within the mask. -/
theorem withTop {top : Nat} (tag : 2 ^ order ∣ top) (masked : top &&& mask = top) :
    Kept order mask reserved range ⟨{ sys.bitmap with top }, sys.grants⟩ :=
  { kept with tag, masked }

theorem rolled_masked : sys.bitmap.rolled &&& mask = sys.bitmap.rolled := by
  rw [Bitmap.rolled, kept.mask_eq, Nat.and_assoc, Nat.and_self]

theorem rolled : 2 ^ order ∣ sys.bitmap.rolled := by
  apply dvd_and
  rw [kept.max]
  have word : 2 ^ order ∣ 2 ^ 32 := pow_dvd_pow 2 (by have := kept.small; omega)
  exact (dvd_mod_iff word).mpr (dvd_add kept.tag (dvd_refl _))

/-- A free run is handed out. -/
theorem take {pos cnt align last : Nat} (some : 0 < cnt)
    (run : FreeRun sys.bitmap.table sys.bitmap.effectiveMax cnt align pos)
    (wanted : pos ||| sys.bitmap.top ≠ ulongMax) (fits : align ∣ sys.bitmap.top)
    (lasts : last < sys.bitmap.effectiveMax ∨ last = 0) :
    Kept order mask reserved range (sys.granted (sys.bitmap.taken pos cnt last) cnt align) := by
  obtain ⟨aligned, inside, clear⟩ := run
  have effective := kept.effective
  have words := kept.words
  have below : pos < 2 ^ order := by omega
  have tagged := or_tag below kept.tag
  have place : (pos ||| sys.bitmap.top) % 2 ^ order = pos := by
    rw [tagged, add_mod, mod_eq_zero_of_dvd kept.tag, zero_add, mod_mod, mod_eq_of_lt below]
  have table := fun bit => @testBit_setBits sys.bitmap.table pos cnt (by omega) bit
  -- The bits of the run belong to nobody.
  have unused : ∀ bit, pos ≤ bit → bit < pos + cnt → reserved ≤ bit ∧ ∀ grant ∈ sys.grants,
      bit < grant.obj % 2 ^ order ∨ grant.obj % 2 ^ order + grant.cnt ≤ bit := by
    intro bit low high
    have notSet : ¬ testBit sys.bitmap.table bit = true := by rw [clear bit low high]; exact Bool.noConfusion
    rw [kept.bits bit (by omega), not_or] at notSet
    refine ⟨not_lt.mp notSet.1, fun grant member => ?_⟩
    by_contra within
    exact notSet.2 ⟨grant, member, by omega, by omega⟩
  have separate : ∀ grant ∈ sys.grants, Apart (2 ^ order) ⟨pos ||| sys.bitmap.top, cnt, align⟩ grant := by
    intro grant member
    have first := (unused pos (le_refl _) (by omega)).2 grant member
    have whole := fun bit low high => (unused bit low high).2 grant member
    unfold Apart
    simp only [place]
    by_contra meets
    have inRun := whole (grant.obj % 2 ^ order) (by omega) (by omega)
    have positive := kept.counted grant member
    omega
  have count : clearCount sys.bitmap.table reserved sys.bitmap.effectiveMax =
      clearCount (setBits sys.bitmap.table pos cnt) reserved sys.bitmap.effectiveMax + cnt := by
    apply clearCount_of_run (unused pos (le_refl _) (by omega)).1 inside
    · intro bit low high
      refine ⟨clear bit low high, ?_⟩
      rw [table, decide_eq_true ⟨low, high⟩, Bool.true_or]
    · intro bit outside
      rw [table, decide_eq_false outside, Bool.false_or]
  have bound := clearCount_le sys.bitmap.table reserved sys.bitmap.effectiveMax
  have limit := kept.effective_le
  unfold granted Bitmap.taken
  simp only [if_pos wanted, if_neg wanted]
  refine { kept with
    apart := ?_, inside := forall_mem_cons.mpr ⟨?_, kept.inside⟩
    aligned := forall_mem_cons.mpr ⟨?_, kept.aligned⟩, avail := ?_, words := by simpa using words
    last := lasts, counted := forall_mem_cons.mpr ⟨some, kept.counted⟩, bits := ?_ }
  · simp only [kept.max]
    exact pairwise_cons.mpr ⟨separate, by simpa only [kept.max] using kept.apart⟩
  · rw [kept.max, place]
    exact ⟨(unused pos (le_refl _) (by omega)).1, inside⟩
  · rw [tagged]
    exact dvd_add fits aligned
  · simp only [kept.avail, u32]
    omega
  · intro bit within
    simp only at within ⊢
    rw [table, Bool.or_eq_true, decide_eq_true_iff, kept.bits bit within]
    simp only [exists_mem_cons_iff, place]
    exact or_left_comm

/-- A range is returned. -/
theorem release {place : Nat} {grant : Grant} (here : sys.grants[place]? = some grant) {top : Nat}
    (tag : 2 ^ order ∣ top) (masked : top &&& mask = top) : Kept order mask reserved range
      ⟨{ sys.bitmap.freeRange grant.obj grant.cnt with top }, sys.grants.eraseIdx place⟩ := by
  obtain ⟨inRange, get⟩ := List.getElem?_eq_some_iff.mp here
  have perm : (grant :: sys.grants.eraseIdx place).Perm sys.grants := by
    rw [← get]
    exact getElem_cons_eraseIdx_perm inRange
  have apart : (grant :: sys.grants.eraseIdx place).Pairwise (Apart (2 ^ order)) := by
    rw [perm.pairwise_iff (fun first => first.symm), ← kept.max]
    exact kept.apart
  obtain ⟨separate, others⟩ := pairwise_cons.mp apart
  have member : ∀ other ∈ sys.grants.eraseIdx place, other ∈ sys.grants :=
    fun other mem => perm.subset (mem_cons_of_mem _ mem)
  have mine : grant ∈ sys.grants := perm.subset (mem_cons_self ..)
  have position : grant.obj &&& (sys.bitmap.max - 1) = grant.obj % 2 ^ order := by
    rw [kept.max, and_two_pow_sub_one_eq_mod]
  obtain ⟨above, inside⟩ := kept.inside grant mine
  rw [kept.max] at above inside
  have effective := kept.effective
  have words := kept.words
  have table := fun bit => @testBit_clearBits sys.bitmap.table (grant.obj % 2 ^ order) grant.cnt
    (by omega) bit
  have count : clearCount (clearBits sys.bitmap.table (grant.obj % 2 ^ order) grant.cnt) reserved
      sys.bitmap.effectiveMax =
      clearCount sys.bitmap.table reserved sys.bitmap.effectiveMax + grant.cnt := by
    apply clearCount_of_run above inside
    · intro bit low high
      rw [table, decide_eq_false (by omega), Bool.false_and]
      exact ⟨rfl, (kept.bits bit (by omega)).mpr (.inr ⟨grant, mine, low, high⟩)⟩
    · intro bit outside
      rw [table, decide_eq_true outside, Bool.true_and]
  have bound := clearCount_le (clearBits sys.bitmap.table (grant.obj % 2 ^ order) grant.cnt) reserved
    sys.bitmap.effectiveMax
  have limit := kept.effective_le
  unfold Bitmap.freeRange
  simp only [position]
  refine { kept with
    apart := by simpa only [kept.max] using others
    inside := fun other mem => kept.inside other (member other mem)
    aligned := fun other mem => kept.aligned other (member other mem)
    avail := ?_, words := by simpa using words, tag, masked, last := ?_
    counted := fun other mem => kept.counted other (member other mem), bits := ?_ }
  · simp only [kept.avail, u32]
    omega
  · have := kept.last
    simp only
    omega
  · intro bit within
    simp only at within ⊢
    rw [table, Bool.and_eq_true, decide_eq_true_iff, kept.bits bit within]
    constructor
    · rintro ⟨outside, free | ⟨other, mem, low, high⟩⟩
      · exact .inl free
      · rcases mem_cons.mp (perm.mem_iff.mpr mem) with rfl | mem
        · exact absurd ⟨low, high⟩ outside
        · exact .inr ⟨other, mem, low, high⟩
    · rintro (free | ⟨other, mem, low, high⟩)
      · exact ⟨by omega, .inl free⟩
      · refine ⟨?_, .inr ⟨other, member other mem, low, high⟩⟩
        have := separate other mem
        unfold Apart at this
        omega

/-! ## The calls -/

/-- The search of `mlx4_bitmap_alloc` finds a clear bit if there is one. -/
theorem search : (sys.bitmap.search.1 < sys.bitmap.effectiveMax → FreeRun sys.bitmap.table
      sys.bitmap.effectiveMax 1 1 sys.bitmap.search.1) ∧
    (sys.bitmap.effectiveMax ≤ sys.bitmap.search.1 →
      ∀ pos, ¬ FreeRun sys.bitmap.table sys.bitmap.effectiveMax 1 1 pos) ∧
    2 ^ order ∣ sys.bitmap.search.2 ∧ sys.bitmap.search.2 &&& mask = sys.bitmap.search.2 := by
  have limit := kept.effective_le
  have effective := kept.effective
  have words := kept.words
  have single : ∀ pos, pos < sys.bitmap.effectiveMax → testBit sys.bitmap.table pos = false →
      FreeRun sys.bitmap.table sys.bitmap.effectiveMax 1 1 pos := by
    intro pos below clear
    refine ⟨one_dvd _, below, fun bit low high => ?_⟩
    rw [show bit = pos by omega]
    exact clear
  unfold Bitmap.search
  dsimp only
  split
  · have found := @found_findFirst false sys.bitmap.effectiveMax sys.bitmap.table (by omega) (by omega)
    refine ⟨fun below => single _ below (found.hit below).2, fun beyond pos run => ?_, kept.rolled,
      kept.rolled_masked⟩
    have clear := run.clear pos (le_refl _) (lt_succ_self _)
    rw [found.miss beyond pos (zero_le _) run.inside] at clear
    exact Bool.noConfusion clear
  · next before =>
    have before := Nat.lt_of_not_le before
    refine ⟨fun below => single _ below ?_, fun beyond => absurd beyond (not_le.mpr before), kept.tag,
      kept.masked⟩
    have last : sys.bitmap.last < sys.bitmap.effectiveMax := by
      have := kept.last
      omega
    exact ((found_findNextZeroBit (by omega) (by omega) last).hit before).2

theorem searchRange {cnt power : Nat} (some : 0 < cnt) (short : cnt < 2 ^ 31)
    (aligns : power < 31) :
    (sys.bitmap.searchRange cnt (2 ^ power) < sys.bitmap.effectiveMax → FreeRun sys.bitmap.table
      sys.bitmap.effectiveMax cnt (2 ^ power) (sys.bitmap.searchRange cnt (2 ^ power))) ∧
    (sys.bitmap.effectiveMax ≤ sys.bitmap.searchRange cnt (2 ^ power) →
      ∀ pos, ¬ FreeRun sys.bitmap.table sys.bitmap.effectiveMax cnt (2 ^ power) pos) := by
  have found := fun start inside => @zeroStringRounds_spec sys.bitmap.table sys.bitmap.effectiveMax cnt
    power start (sys.bitmap.effectiveMax + 1) kept.effective_le aligns some short inside (by omega)
  unfold Bitmap.searchRange
  dsimp only
  split
  · obtain ⟨hit, miss⟩ := found 0 (zero_le _)
    exact ⟨hit, fun none pos => (miss none).2 pos (zero_le _)⟩
  · next before =>
    exact ⟨(found sys.bitmap.last (by have := kept.last; omega)).1, fun none => absurd none before⟩

/-- An allocation that is careful keeps the promise, and reports a failure only for want of a bit. -/
theorem alloc (careful : AllocCareful sys.bitmap) :
    Kept order mask reserved range (sys.granted sys.bitmap.alloc 1 1) ∧ (sys.bitmap.alloc.1 = ulongMax →
      ∀ pos, ¬ FreeRun sys.bitmap.table sys.bitmap.effectiveMax 1 1 pos) := by
  obtain ⟨hit, miss, tag, masked⟩ := kept.search
  have limit := kept.effective_le
  unfold Bitmap.alloc
  dsimp only
  by_cases below : sys.bitmap.search.1 < sys.bitmap.effectiveMax
  · rw [if_pos below, u32_of_lt (by omega)]
    refine ⟨?_, fun failed => absurd failed (careful below)⟩
    apply (kept.withTop tag masked).take one_pos (hit below) (careful below) (one_dvd _)
    simp only
    split <;> omega
  · rw [if_neg below]
    exact ⟨kept.withTop tag masked, fun _ => miss (Nat.le_of_not_lt below)⟩

theorem allocRange {cnt power : Nat} (some : 0 < cnt) (short : cnt < 2 ^ 31) (aligns : power < 31)
    (careful : Careful sys (.allocRange cnt power)) :
    Kept order mask reserved range (sys.granted (sys.bitmap.allocRange cnt (2 ^ power)) cnt (2 ^ power)) ∧
    ((sys.bitmap.allocRange cnt (2 ^ power)).1 = ulongMax →
      ∀ pos, ¬ FreeRun sys.bitmap.table sys.bitmap.effectiveMax cnt (2 ^ power) pos) := by
  simp only [Careful] at careful
  unfold Bitmap.allocRange
  by_cases one : cnt = 1 ∧ power = 0
  · obtain ⟨rfl, rfl⟩ := one
    exact kept.alloc (by simpa using careful)
  · have many : ¬ (cnt = 1 ∧ 2 ^ power = 1) := by
      simpa [Nat.pow_eq_one] using one
    obtain ⟨hit, miss⟩ := kept.searchRange some short aligns
    have limit := kept.effective_le
    rw [if_neg one] at careful
    rw [if_neg many]
    dsimp only
    by_cases below : sys.bitmap.searchRange cnt (2 ^ power) < sys.bitmap.effectiveMax
    · have inside := (hit below).inside
      rw [if_pos below, u32_of_lt (by omega)]
      obtain ⟨wanted, fits⟩ := careful below
      refine ⟨?_, fun failed => absurd failed wanted⟩
      apply kept.take some (hit below) wanted fits
      have := kept.last
      split
      · split <;> omega
      · exact kept.last
    · rw [if_neg below]
      exact ⟨kept, fun _ => miss (Nat.le_of_not_lt below)⟩

theorem next {after : BitmapSys} {call : BitmapCall} (careful : Careful sys call)
    (taken : sys.next call = some after) : Kept order mask reserved range after := by
  cases call with
  | alloc =>
    cases taken
    exact (kept.alloc careful).1
  | allocRange cnt power =>
    obtain ⟨admitted, ⟨⟩⟩ := Option.ite_none_right_eq_some.mp taken
    exact (kept.allocRange admitted.1 admitted.2.1 admitted.2.2 careful).1
  | free place =>
    obtain ⟨grant, here, freed⟩ := Option.bind_eq_some_iff.mp taken
    obtain ⟨single, ⟨⟩⟩ := Option.ite_none_right_eq_some.mp freed
    have released := kept.release here kept.rolled kept.rolled_masked
    rw [single] at released
    exact released
  | freeRange place =>
    obtain ⟨grant, here, freed⟩ := Option.bind_eq_some_iff.mp taken
    cases freed
    exact kept.release here kept.tag kept.masked

end

/-- A new bitmap. -/
theorem init {memory : Bool} {bitmap : Bitmap} (small : order ≤ 31)
    (reserves : reserved ≤ range) (effective : range ≤ 2 ^ order) (signed : reserved < 2 ^ 31)
    (made : Bitmap.initWithEffectiveMax memory (2 ^ order) mask reserved range = .ok bitmap) :
    Kept order mask reserved range ⟨bitmap, []⟩ := by
  have max : 2 ^ order ≤ 2 ^ 31 := Nat.pow_le_pow_right (by decide) small
  unfold Bitmap.initWithEffectiveMax at made
  rw [roundupPowOfTwo_two_pow (by omega), if_neg (not_not.mpr rfl), if_pos signed] at made
  split at made
  · cases made
    have words : bitsToLongs (2 ^ order) = (2 ^ order + 31) / 32 := bitsToLongs_eq (by omega)
    have table := fun bit => @testBit_setBits (replicate (bitsToLongs (2 ^ order)) 0#32) 0 reserved
      (by rw [length_replicate, words]; omega) bit
    constructor
    · constructor
      · exact List.Pairwise.nil
      · exact forall_mem_nil _
      · exact forall_mem_nil _
      · simp only [u32, clearCount]
        rw [Finset.filter_true_of_mem, card_Ico]
        · omega
        · intro bit within
          rw [Finset.mem_Ico] at within
          rw [table, testBit_replicate_zero, decide_eq_false (by omega), Bool.or_false]
    · exact small
    · rfl
    · rfl
    · rfl
    · exact effective
    · exact reserves
    · rw [length_setBits, length_replicate, words]
      omega
    · exact dvd_zero _
    · exact zero_and _
    · exact .inr rfl
    · exact forall_mem_nil _
    · intro bit _
      simp [table]
  · cases made

/-! ## Calls that are careful anyway -/

/-- A mask and positions that leave a bit clear do not make the number of a failure. -/
theorem or_ne_ulongMax {pos top : Nat} (below : pos < 2 ^ order) (within : top &&& mask = top)
    (small : order ≤ 31) (word : mask < 2 ^ 32) (clear : mask ||| (2 ^ order - 1) ≠ ulongMax) :
    pos ||| top ≠ ulongMax := by
  intro full
  refine clear (Nat.eq_of_testBit_eq fun bit => ?_)
  have set := congrArg (Nat.testBit · bit) full
  simp only [ulongMax, Nat.testBit_or, Nat.testBit_two_pow_sub_one] at set ⊢
  by_cases inside : bit < 32
  · rw [decide_eq_true inside, Bool.or_eq_true] at set ⊢
    refine set.symm.imp (fun tag => ?_) fun position => decide_eq_true ?_
    · rw [← within, Nat.testBit_and, Bool.and_eq_true] at tag
      exact tag.2
    · by_contra beyond
      rw [Nat.testBit_lt_two_pow
        (below.trans_le (Nat.pow_le_pow_right (by decide) (Nat.le_of_not_lt beyond)))] at position
      cases position
  · rw [decide_eq_false inside, decide_eq_false (by omega), Bool.or_false]
    exact Nat.testBit_lt_two_pow
      (word.trans_le (Nat.pow_le_pow_right (by decide) (Nat.le_of_not_lt inside)))

theorem careful_of_modest {call : BitmapCall} (kept : Kept order mask reserved range sys)
    (word : mask < 2 ^ 32) (clear : mask ||| (2 ^ order - 1) ≠ ulongMax)
    (modest : Modest sys call) : Careful sys call := by
  have wanted {pos top : Nat} (below : pos < sys.bitmap.effectiveMax) (within : top &&& mask = top) :
      pos ||| top ≠ ulongMax :=
    or_ne_ulongMax (below.trans_le kept.effective) within kept.small word clear
  have single : AllocCareful sys.bitmap := fun below => wanted below kept.search.2.2.2
  cases call with
  | alloc => exact single
  | allocRange cnt power =>
    simp only [Careful]
    split
    · exact single
    · refine fun below => ⟨wanted below kept.masked, dvd_trans (pow_dvd_pow 2 ?_) kept.tag⟩
      have fits : 2 ^ power ≤ sys.bitmap.max := modest
      rw [kept.max] at fits
      exact (Nat.pow_le_pow_iff_right (by decide)).mp fits
  | free place | freeRange place => trivial

end Kept

/-- With a mask that leaves a bit clear above the positions, every run with alignments up to `max` is
careful. -/
theorem reachable_of_modest {order mask reserved effectiveMax : Nat} {memory : Bool} {bitmap : Bitmap}
    {sys : BitmapSys} (small : order ≤ 31) (reserves : reserved ≤ effectiveMax)
    (effective : effectiveMax ≤ 2 ^ order) (signed : reserved < 2 ^ 31) (word : mask < 2 ^ 32)
    (clear : mask ||| (2 ^ order - 1) ≠ ulongMax)
    (made : Bitmap.initWithEffectiveMax memory (2 ^ order) mask reserved effectiveMax = .ok bitmap)
    (reached : (machine bitmap).Reachable Modest sys) :
    (machine bitmap).Reachable Careful sys := by
  suffices both : (machine bitmap).Reachable Careful sys ∧ Kept order mask reserved effectiveMax sys
    from both.1
  induction reached with
  | initial start =>
    refine ⟨.initial start, ?_⟩
    cases start
    exact Kept.init small reserves effective signed made
  | step _ modest taken ih =>
    obtain ⟨reached, kept⟩ := ih
    have careful := kept.careful_of_modest word clear modest
    exact ⟨.step reached careful taken, kept.next careful taken⟩

/-- In every run whose allocations are careful, from a bitmap whose reserved numbers leave at most
`max` in all, the ranges are apart modulo `max`, outside the reserved numbers and aligned, `avail` counts
the clear bits, and a careful allocation fails only if there is no free run. -/
theorem sound_of_reachable {order mask reserved effectiveMax : Nat} {memory : Bool} {bitmap : Bitmap}
    {sys : BitmapSys} (small : order ≤ 31) (reserves : reserved ≤ effectiveMax)
    (effective : effectiveMax ≤ 2 ^ order) (signed : reserved < 2 ^ 31)
    (made : Bitmap.initWithEffectiveMax memory (2 ^ order) mask reserved effectiveMax = .ok bitmap)
    (reached : (machine bitmap).Reachable Careful sys) :
    sys.bitmap.max = 2 ^ order ∧ sys.bitmap.effectiveMax = effectiveMax ∧ sys.Sound reserved ∧
    (Careful sys .alloc → sys.bitmap.alloc.1 = ulongMax →
      ∀ pos, ¬ FreeRun sys.bitmap.table effectiveMax 1 1 pos) ∧
    ∀ cnt power, 0 < cnt → cnt < 2 ^ 31 → power < 31 → Careful sys (.allocRange cnt power) →
      (sys.bitmap.allocRange cnt (2 ^ power)).1 = ulongMax →
      ∀ pos, ¬ FreeRun sys.bitmap.table effectiveMax cnt (2 ^ power) pos := by
  have kept : Kept order mask reserved effectiveMax sys := by
    apply reached.invariant
    · rintro _ rfl
      exact Kept.init small reserves effective signed made
    · exact fun _ _ _ kept careful taken => kept.next careful taken
  rw [← kept.ranges]
  exact ⟨kept.max, rfl, kept.toSound, fun careful => (kept.alloc careful).2,
    fun cnt power some short aligns careful => (kept.allocRange some short aligns careful).2⟩

/-- A bitmap of two numbers and a tag of all the other bits, as the memory regions use it. -/
def pair (top : Nat) : BitmapSys :=
  ⟨{ last := 0, top, max := 2, mask := 2 ^ 32 - 1, effectiveMax := 2, avail := 2, table := [0#32] }, []⟩

/-- A bitmap of eight numbers, the first of which is reserved. -/
def octet : Bitmap :=
  { last := 0, top := 0, max := 8, mask := 15, effectiveMax := 8, avail := 7, table := [1#32] }

/-- Two ranges and a number are handed out, of which the first is returned. -/
def octetCalls : List BitmapCall := [.allocRange 2 1, .allocRange 4 2, .alloc, .freeRange 2]

/-- The two that are left are apart. -/
theorem octet_sound : ∃ sys, Machine.run next ⟨octet, []⟩ octetCalls = some sys ∧
    sys.Sound 1 ∧ sys.grants = [⟨1, 1, 1⟩, ⟨4, 4, 4⟩] := by
  obtain ⟨sys, ended, grants⟩ : ∃ sys, Machine.run next ⟨octet, []⟩ octetCalls = some sys ∧
      sys.grants = [⟨1, 1, 1⟩, ⟨4, 4, 4⟩] := Machine.run_of_any (by decide +kernel)
  have modest : Machine.Guarded next Modest ⟨octet, []⟩ octetCalls := by
    decide +kernel
  have made : Bitmap.initWithEffectiveMax true (2 ^ 3) 15 1 8 = .ok octet := by decide +kernel
  have reached : (machine octet).Reachable Modest sys := .run (.initial rfl) modest ended
  have careful := reachable_of_modest (by decide) (by decide) (by decide) (by decide) (by decide)
    (by decide) made reached
  exact ⟨sys, ended, (sound_of_reachable (by decide) (by decide) (by decide) (by decide) made
    careful).2.2.1, grants⟩

/-- Taking a number and returning it rolls the tag on. -/
theorem pair_cycle {round : Nat} (more : 2 * round + 2 < 2 ^ 32) :
    Machine.run next (pair (2 * round)) [.alloc, .free 0] = some (pair (2 * round + 2)) := by
  have search : (pair (2 * round)).bitmap.search = (0, 2 * round) := by
    have found : findNextZeroBit [0#32] 2 0 = 0 := by decide +kernel
    simp [Bitmap.search, pair, found]
  have wanted : 2 * round ≠ ulongMax := by
    unfold ulongMax
    omega
  have taken : (pair (2 * round)).next .alloc =
      some ⟨{ (pair (2 * round)).bitmap with last := 1, avail := 1, table := [1#32] },
        [⟨2 * round, 1, 1⟩]⟩ := by
    have set : setBits [0#32] 0 1 = [1#32] := by decide +kernel
    simp only [next, Bitmap.alloc, search]
    simp [pair, granted, Bitmap.taken, wanted, u32, set]
  have position : 2 * round &&& 1 = 0 := by
    rw [and_one_is_mod]
    omega
  have rolled : u32 (2 * round + 2) &&& (2 ^ 32 - 1) = 2 * round + 2 := by
    rw [and_two_pow_sub_one_eq_mod, u32_of_lt more, mod_eq_of_lt more]
  have cleared : clearBit [1#32] 0 = [0#32] := by decide +kernel
  have freed : Bitmap.free { (pair (2 * round)).bitmap with last := 1, avail := 1, table := [1#32] }
      (2 * round) = (pair (2 * round + 2)).bitmap := by
    simp only [Bitmap.free, Bitmap.rolled, pair, position, cleared, rolled]
    rfl
  rw [Machine.run, taken]
  exact congrArg (fun bitmap => some (BitmapSys.mk bitmap [])) freed

theorem pair_reachable (round : Nat) (below : 2 * round < 2 ^ 32) :
    (machine (pair 0).bitmap).Reachable (fun _ _ => True) (pair (2 * round)) := by
  induction round with
  | zero => exact .initial rfl
  | succ round ih =>
    exact (ih (by omega)).run (Machine.guarded_of_forall (fun _ _ => trivial) _ _) (pair_cycle (by omega))

/-- After enough returns the tag has all its bits. The second number is then taken for a failure: the
call says that it has none although its bit was clear, and `avail` stays. -/
theorem pair_alloc_fails : ∃ sys, (machine (pair 0).bitmap).Reachable (fun _ _ => True) sys ∧
    sys.bitmap.alloc.1 = ulongMax ∧ FreeRun sys.bitmap.table 2 1 1 1 ∧
    sys.bitmap.alloc.2.avail = 1 ∧ clearCount sys.bitmap.alloc.2.table 0 2 = 0 := by
  have start := pair_reachable (2 ^ 31 - 1) (by decide)
  have taken : (pair (2 * (2 ^ 31 - 1))).next .alloc =
      some ⟨(pair (2 * (2 ^ 31 - 1))).bitmap.alloc.2, [⟨2 ^ 32 - 2, 1, 1⟩]⟩ := by decide +kernel
  refine ⟨_, .step start trivial taken, by decide +kernel, ⟨one_dvd _, by decide, ?_⟩,
    by decide +kernel, by decide +kernel⟩
  intro bit low high
  rw [show bit = 1 by omega]
  decide +kernel

end BitmapSys
end WinOFED.Mlx4
