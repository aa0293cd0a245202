import WinOFED.Mad.SendCompletion

/-! When a send is retried: the interval that `__set_retry_time` doubles, and the delays that are
added to it. -/
namespace WinOFED.Mad
open UInt32

/-- The interval a `timeout_ms` stands for. A negative one has it in its lower half. -/
def baseMs (timeoutMs : UInt32) : Nat :=
  if timeoutMs.toNat < 2 ^ 31 then timeoutMs.toNat else (2 ^ 32 - timeoutMs.toNat) % 2 ^ 16

/-- The interval at which the doubling of a `timeout_ms` is to end, `SHRT_MAX` if it names none. -/
def maxMs (timeoutMs : UInt32) : Nat :=
  if timeoutMs.toNat < 2 ^ 31 then timeoutMs.toNat
  else if (2 ^ 32 - timeoutMs.toNat) / 2 ^ 16 = 0 then 2 ^ 15 - 1
  else (2 ^ 32 - timeoutMs.toNat) / 2 ^ 16

theorem toInt_toInt32 (word : UInt32) : word.toInt32.toInt =
    if word.toNat < 2 ^ 31 then (word.toNat : Int) else word.toNat - 2 ^ 32 := by
  rw [← Int32.toInt_toBitVec, toBitVec_toInt32, BitVec.toInt_eq_toNat_cond, toNat_toBitVec]
  split <;> split <;> omega

theorem toInt32_neg_iff (word : UInt32) : word.toInt32 < 0 ↔ 2 ^ 31 ≤ word.toNat := by
  rw [Int32.lt_iff_toInt_lt, toInt_toInt32]
  have := word.toNat_lt
  split <;> simp <;> omega

theorem toNat_extended (word : UInt32) : word.toInt32.toInt64.toUInt64.toNat =
    word.toNat + if word.toNat < 2 ^ 31 then 0 else 2 ^ 64 - 2 ^ 32 := by
  change (word.toBitVec.signExtend 64).toNat = _
  rw [BitVec.toNat_signExtend, BitVec.toNat_setWidth, BitVec.msb_eq_decide, toNat_toBitVec,
    Nat.mod_eq_of_lt (by have := word.toNat_lt; omega)]
  simp only [decide_eq_true_iff, ← Nat.not_lt, ite_not, Nat.add_one_sub_one]

theorem toNat_shifted (word : UInt32) (positive : word.toNat < 2 ^ 31) :
    (word.toInt32 >>> 16).toUInt32.toNat = word.toNat / 2 ^ 16 := by
  change (word.toBitVec.sshiftRight 16).toNat = _
  rw [BitVec.sshiftRight_eq_of_msb_false (by simpa [BitVec.msb_eq_decide] using positive),
    BitVec.toNat_ushiftRight, toNat_toBitVec, Nat.shiftRight_eq_div_pow]

theorem encoded (bound base : UInt32) (named : 0 < bound.toNat) (short : bound.toNat < 2 ^ 15)
    (half : base.toNat < 2 ^ 16) : baseMs (-(bound <<< 16 ||| base)) = base.toNat ∧
      maxMs (-(bound <<< 16 ||| base)) = bound.toNat := by
  have word : (bound <<< 16 ||| base).toNat = bound.toNat * 2 ^ 16 + base.toNat := by
    rw [UInt32.toNat_or, UInt32.toNat_shiftLeft, Nat.shiftLeft_eq,
      Nat.mod_eq_of_lt (by change _ * 2 ^ 16 < _; omega)]
    change bound.toNat * 2 ^ 16 ||| base.toNat = _
    rw [Nat.mul_comm, Nat.two_pow_add_eq_or_of_lt half]
  have whole : (-(bound <<< 16 ||| base)).toNat = 2 ^ 32 - (bound.toNat * 2 ^ 16 + base.toNat) := by
    rw [toNat_neg, word, Nat.mod_eq_of_lt (by simp only [UInt32.size]; omega)]
    rfl
  simp only [baseMs, maxMs, whole]
  constructor
  · split <;> omega
  · split
    · omega
    · split <;> omega

/-- The interval for the next retry is twice as long, up to the greatest. -/
theorem nextTimeout_spec (timeoutMs : UInt32) :
    (nextTimeout timeoutMs).1.toNat = baseMs timeoutMs ∧ (baseMs timeoutMs ≠ 0 →
      baseMs (nextTimeout timeoutMs).2 = min (2 * baseMs timeoutMs) (maxMs timeoutMs) ∧
      maxMs (nextTimeout timeoutMs).2 = maxMs timeoutMs) := by
  have := timeoutMs.toNat_lt
  by_cases negative : timeoutMs.toInt32 < 0
  · have high := (toInt32_neg_iff _).mp negative
    have value : (-timeoutMs).toNat = 2 ^ 32 - timeoutMs.toNat := by
      rw [toNat_neg, Nat.mod_eq_of_lt (by simp only [UInt32.size]; omega)]
      rfl
    have base : (-timeoutMs &&& 0xFFFF).toNat = baseMs timeoutMs := by
      rw [baseMs, if_neg (by omega), UInt32.toNat_and, value]
      exact Nat.and_two_pow_sub_one_eq_mod _ 16
    simp only [nextTimeout, if_pos negative]
    refine ⟨by split <;> split <;> exact base, fun nonzero => ?_⟩
    have bases : baseMs timeoutMs = (-timeoutMs).toNat % 2 ^ 16 := by
      rw [baseMs, if_neg (by omega), value]
    have bounds := toNat_shifted (-timeoutMs) (by omega)
    have greatest : maxMs timeoutMs = if (-timeoutMs).toNat / 2 ^ 16 = 0 then 2 ^ 15 - 1
        else (-timeoutMs).toNat / 2 ^ 16 := by
      rw [maxMs, if_neg (by omega), value]
    rw [← bounds] at greatest
    generalize ((-timeoutMs).toInt32 >>> 16).toUInt32 = named at bounds greatest ⊢
    have bounded : (if named == 0 then 0x7FFF else named).toNat = maxMs timeoutMs := by
      rw [greatest]
      by_cases zero : named = 0
      · rw [zero]
        rfl
      · rw [if_neg (by simpa using zero), if_neg (by simpa [← UInt32.toNat_inj] using zero)]
    have short : 0 < maxMs timeoutMs ∧ maxMs timeoutMs < 2 ^ 15 := by
      rw [greatest]
      split <;> omega
    generalize (if named == 0 then 0x7FFF else named) = bound at bounded ⊢
    have twice : ((-timeoutMs &&& 0xFFFF) * 2).toNat = 2 * baseMs timeoutMs := by
      rw [UInt32.toNat_mul, base, Nat.mul_comm]
      exact Nat.mod_eq_of_lt (by change 2 * _ < _; omega)
    have compared : ((-timeoutMs &&& 0xFFFF) * 2).toInt32 ≤ bound.toInt32 ↔
        2 * baseMs timeoutMs ≤ maxMs timeoutMs := by
      rw [Int32.le_iff_toInt_le, toInt_toInt32, toInt_toInt32, twice, bounded, if_pos (by omega),
        if_pos (by omega)]
      omega
    split
    next within =>
      have := compared.mp within
      obtain ⟨next, last⟩ := encoded bound ((-timeoutMs &&& 0xFFFF) * 2) (by omega) (by omega) (by omega)
      dsimp only
      omega
    next beyond =>
      have := mt compared.mpr beyond
      obtain ⟨next, last⟩ := encoded bound bound (by omega) (by omega) (by omega)
      dsimp only
      omega
  · have low : timeoutMs.toNat < 2 ^ 31 := by
      rw [toInt32_neg_iff] at negative
      omega
    simp only [nextTimeout, if_neg negative, baseMs, maxMs, if_pos low]
    exact ⟨trivial, fun _ => ⟨by omega, trivial⟩⟩

/-- What a retry meets: the delay that was asked for since the last one, the jitter and the
clock. -/
structure Retry where
  delay : UInt32
  sendJitter : UInt32
  timeStamp : UInt64

/-- How long it is to wait. -/
def Retry.waitMs (retry : Retry) (base : Nat) : Nat :=
  base + retry.sendJitter.toNat % base / 2 + retry.delay.toNat

/-- `__set_retry_time` for a retry. -/
def SendHandle.retry (handle : SendHandle) (retry : Retry) : Option SendHandle :=
  setRetryTime { handle with delay := retry.delay } retry.sendJitter retry.timeStamp

/-- The retries that follow one another find a retry time each, as late as the interval, the
jitter and the delay make it, and the interval doubles up to the greatest and stays there. -/
def RetriesRight (handle : SendHandle) : List Retry → Prop
  | [] => True
  | retry :: rest =>
    let base := baseMs handle.pSendMad.timeoutMs
    ∃ after, handle.retry retry = some after ∧
      after.retryTime.toNat = retry.timeStamp.toNat + 1000 * retry.waitMs base ∧
      base ≤ baseMs after.pSendMad.timeoutMs ∧
      baseMs after.pSendMad.timeoutMs = min (2 * base) (maxMs handle.pSendMad.timeoutMs) ∧
      maxMs after.pSendMad.timeoutMs = maxMs handle.pSendMad.timeoutMs ∧ RetriesRight after rest

/-- The interval is none too long, and the waits are times of the clock. -/
def WaitsFit (greatest : Nat) : Nat → List Retry → Prop
  | _, [] => True
  | base, retry :: rest =>
    base ≠ 0 ∧ base ≤ greatest ∧ retry.waitMs base < 2 ^ 31 ∧
      retry.timeStamp.toNat + 1000 * retry.waitMs base < 2 ^ 64 ∧
      WaitsFit greatest (min (2 * base) greatest) rest

variable {handle : SendHandle} (retry : Retry)

theorem retry_eq_none (zero : baseMs handle.pSendMad.timeoutMs = 0) : handle.retry retry = none := by
  have base := (nextTimeout_spec handle.pSendMad.timeoutMs).1
  simp only [SendHandle.retry, setRetryTime]
  rw [if_pos]
  rw [beq_iff_eq, ← UInt32.toNat_inj, base, zero]
  rfl

/-- The retry time as it is computed: in 32 bits, taken for a signed number. -/
theorem retry_eq_some (nonzero : baseMs handle.pSendMad.timeoutMs ≠ 0) : ∃ after wait,
    handle.retry retry = some after ∧
    after.pSendMad.timeoutMs = (nextTimeout handle.pSendMad.timeoutMs).2 ∧
    wait = retry.waitMs (baseMs handle.pSendMad.timeoutMs) % 2 ^ 32 ∧ after.retryTime.toNat =
      ((wait + if wait < 2 ^ 31 then 0 else 2 ^ 64 - 2 ^ 32) * 1000 + retry.timeStamp.toNat) % 2 ^ 64 := by
  have base := (nextTimeout_spec handle.pSendMad.timeoutMs).1
  have positive : ¬ ((nextTimeout handle.pSendMad.timeoutMs).1 == 0) = true := by
    rw [beq_iff_eq, ← UInt32.toNat_inj, base]
    exact nonzero
  have reduced : ((nextTimeout handle.pSendMad.timeoutMs).1 + retry.sendJitter %
      (nextTimeout handle.pSendMad.timeoutMs).1 / 2 + retry.delay).toNat =
        retry.waitMs (baseMs handle.pSendMad.timeoutMs) % 2 ^ 32 := by
    simp [Retry.waitMs, base]
  simp only [SendHandle.retry, setRetryTime, if_neg positive]
  refine ⟨_, _, rfl, rfl, reduced, ?_⟩
  rw [UInt64.toNat_add, UInt64.toNat_mul, toNat_extended, Nat.mod_add_mod]
  rfl

/-- Whether the retries of a send go as they should, for any number of them. -/
theorem retriesRight_iff (handle : SendHandle) (retries : List Retry) : RetriesRight handle retries ↔
    WaitsFit (maxMs handle.pSendMad.timeoutMs) (baseMs handle.pSendMad.timeoutMs) retries := by
  induction retries generalizing handle with
  | nil => rfl
  | cons retry rest ih =>
    by_cases zero : baseMs handle.pSendMad.timeoutMs = 0
    · simp [RetriesRight, WaitsFit, retry_eq_none _ zero, zero]
    · obtain ⟨after, wait, set, next, reduced, time⟩ := retry_eq_some retry zero
      obtain ⟨doubled, same⟩ := (nextTimeout_spec handle.pSendMad.timeoutMs).2 zero
      have bounded : retry.waitMs (baseMs handle.pSendMad.timeoutMs) < 2 ^ 34 := by
        have delay := retry.delay.toNat_lt
        have jitter := Nat.mod_lt retry.sendJitter.toNat (Nat.pos_of_ne_zero zero)
        have base := (nextTimeout handle.pSendMad.timeoutMs).1.toNat_lt
        rw [(nextTimeout_spec _).1] at base
        simp only [Retry.waitMs]
        omega
      simp only [RetriesRight, WaitsFit, set, Option.some.injEq, exists_eq_left', ih, next, doubled,
        same, time]
      clear time
      constructor
      · rintro ⟨late, longer, -, -, fit⟩
        have fits := late ▸ Nat.mod_lt _ (by decide : 2 ^ 64 > 0)
        refine ⟨zero, by omega, ?_, fits, fit⟩
        split at late <;> omega
      · rintro ⟨-, longer, short, fits, fit⟩
        have whole : wait = retry.waitMs (baseMs handle.pSendMad.timeoutMs) := by omega
        rw [whole, if_pos short, Nat.mod_eq_of_lt (by omega)]
        exact ⟨by omega, by omega, trivial, trivial, fit⟩

/-- A request with the given `timeout_ms`, as `ib_send_mad` tracks it. -/
def sampleWaiting (timeoutMs : UInt32) : SendHandle :=
  { pSendMad := { sampleRequest 0 with timeoutMs, respExpected := true }, pRespMad := none
    retryTime := maxTime, delay := 0, retryCnt := 0, canceled := false, usesRmpp := false
    ackSeg := 0, curSeg := 0, segLimit := 0, totalSeg := 0 }

/-- An interval of 4 ms, then 8 ms each, one of them delayed. -/
theorem sampleWaiting_right :
    RetriesRight (sampleWaiting (-0x80004)) [⟨0, 3, 10⟩, ⟨50, 9, 20⟩, ⟨0, 9, 30⟩] :=
  (retriesRight_iff _ _).mpr (by simp only [WaitsFit]; decide)

/-- The longest interval with a jitter puts the retry before the present, and an interval that
is longer than the greatest gets shorter. -/
theorem sampleWaiting_wrong : ∃ early shorter,
    initSendMad .default (getMadSend (sampleWaiting 0) (sampleWaiting 0x7FFFFFFF).pSendMad) .success =
      .ok (sampleWaiting 0x7FFFFFFF) ∧
    (sampleWaiting 0x7FFFFFFF).retry ⟨0, 2, 2 ^ 42⟩ = some early ∧ early.retryTime < 2 ^ 42 ∧
    (sampleWaiting (-0x20009)).retry ⟨0, 0, 0⟩ = some shorter ∧
    baseMs (-0x20009) = 9 ∧ baseMs shorter.pSendMad.timeoutMs = 2 := by
  exact ⟨_, _, rfl, rfl, by decide, rfl, by decide, by decide⟩

end WinOFED.Mad
