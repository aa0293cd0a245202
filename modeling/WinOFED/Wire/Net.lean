import Mathlib

/-! Words in network byte order, and bytes that several fields share. -/
namespace WinOFED.Wire

abbrev Byte := BitVec 8

/-! ### Words in network order -/

/-- A 32-bit word as its bytes in memory. -/
structure Net32 where
  b0 : Byte
  b1 : Byte
  b2 : Byte
  b3 : Byte
deriving DecidableEq, Repr

/-- The number that a word in network order stands for. -/
def ntoh32 (word : Net32) : BitVec 32 := word.b0 ++ word.b1 ++ word.b2 ++ word.b3

/-- A number in network order. -/
def hton32 (value : BitVec 32) : Net32 :=
  ⟨value.extractLsb' 24 8, value.extractLsb' 16 8, value.extractLsb' 8 8, value.extractLsb' 0 8⟩

/-- The bitwise conjunction of two words; it does not depend on the byte order. -/
def Net32.and (word mask : Net32) : Net32 :=
  ⟨word.b0 &&& mask.b0, word.b1 &&& mask.b1, word.b2 &&& mask.b2, word.b3 &&& mask.b3⟩

variable (word : Net32)

theorem getLsbD_ntoh32 (bit : Nat) :
    (ntoh32 word).getLsbD bit =
      if bit < 8 then word.b3.getLsbD bit
      else if bit < 16 then word.b2.getLsbD (bit - 8)
      else if bit < 24 then word.b1.getLsbD (bit - 16)
      else word.b0.getLsbD (bit - 24) := by
  simp only [ntoh32, BitVec.getLsbD_append, Nat.sub_sub]
  split_ifs <;> first | rfl | omega

@[simp] theorem ntoh32_hton32 (value : BitVec 32) : ntoh32 (hton32 value) = value := by
  apply BitVec.eq_of_getLsbD_eq
  intro bit inside
  simp only [getLsbD_ntoh32, hton32, BitVec.getLsbD_extractLsb']
  interval_cases bit <;> rfl

@[simp] theorem hton32_ntoh32 : hton32 (ntoh32 word) = word := by
  obtain ⟨b0, b1, b2, b3⟩ := word
  simp only [hton32, Net32.mk.injEq]
  refine ⟨?_, ?_, ?_, ?_⟩
  all_goals
    apply BitVec.eq_of_getLsbD_eq
    intro bit inside
    simp only [BitVec.getLsbD_extractLsb', getLsbD_ntoh32]
    interval_cases bit <;> rfl

theorem hton32_inj {value other : BitVec 32} : hton32 value = hton32 other ↔ value = other := by
  constructor
  · intro same
    rw [← ntoh32_hton32 value, same, ntoh32_hton32]
  · rintro rfl
    rfl

/-- A shift by one byte. -/
theorem hton32_shiftRight_eight : hton32 (ntoh32 word >>> 8) = ⟨0, word.b0, word.b1, word.b2⟩ := by
  simp only [hton32, Net32.mk.injEq]
  refine ⟨?_, ?_, ?_, ?_⟩
  all_goals
    apply BitVec.eq_of_getLsbD_eq
    intro bit inside
    simp only [BitVec.getLsbD_extractLsb', BitVec.getLsbD_ushiftRight, getLsbD_ntoh32]
    interval_cases bit <;> simp

/-- A number that does not change when its last four bits are cut off. -/
theorem shiftRight_four_eq_self {value : BitVec 32} : value >>> 4 = value ↔ value = 0 := by
  constructor
  · intro same
    have number := congrArg BitVec.toNat same
    rw [BitVec.toNat_ushiftRight, Nat.shiftRight_eq_div_pow] at number
    apply BitVec.eq_of_toNat_eq
    change value.toNat = 0
    omega
  · rintro rfl
    rfl

/-! ### Fields of a byte -/

theorem ntoh32_and (first second : Net32) : ntoh32 (first.and second) = ntoh32 first &&& ntoh32 second := by
  apply BitVec.eq_of_getLsbD_eq
  intro bit inside
  rw [BitVec.getLsbD_and, getLsbD_ntoh32, getLsbD_ntoh32, getLsbD_ntoh32]
  simp only [Net32.and, BitVec.getLsbD_and]
  split_ifs <;> rfl

theorem ntoh32_and_hton32 (field : Net32) {keeps mask : BitVec 32} (apart : keeps &&& mask = 0) :
    ntoh32 (field.and (hton32 keeps)) &&& mask = 0 := by
  rw [ntoh32_and, ntoh32_hton32, BitVec.and_assoc, apart]
  exact BitVec.and_zero

theorem and_and_eq_zero (byte : Byte) {keeps mask : Byte} (apart : keeps &&& mask = 0) :
    byte &&& keeps &&& mask = 0 := by
  rw [BitVec.and_assoc, apart]
  exact BitVec.and_zero

/-- Put a value at its place in a byte, of which the bits in `keep` stay. -/
def putBits (keep : Byte) (place : Nat) (value byte : Byte) : Byte :=
  (byte &&& keep) ||| (value <<< place)

/-- The bits at a place. -/
def getBits (place : Nat) (mask byte : Byte) : Byte := (byte >>> place) &&& mask

section
variable {keep mask value byte : Byte} {place : Nat}

theorem and_of_lt {width : Nat} (bound : width ≤ 8) (fits : value.toNat < 2 ^ width) :
    value &&& BitVec.ofNat 8 (2 ^ width - 1) = value := by
  apply BitVec.eq_of_toNat_eq
  have small : 2 ^ width ≤ 2 ^ 8 := Nat.pow_le_pow_right (by decide) bound
  have positive := Nat.two_pow_pos width
  rw [BitVec.toNat_and, BitVec.toNat_ofNat, Nat.mod_eq_of_lt (by omega),
    Nat.and_two_pow_sub_one_eq_mod, Nat.mod_eq_of_lt fits]

/-- A shift reads the bits from a place on. -/
theorem shiftRight_eq_getBits (place : Nat) (byte : Byte) :
    byte >>> place = getBits place (BitVec.allOnes 8 >>> place) byte := by
  rw [getBits, ← BitVec.ushiftRight_and_distrib, BitVec.and_allOnes]

theorem and_eq_getBits (mask byte : Byte) : byte &&& mask = getBits 0 mask byte := by
  rw [getBits, BitVec.ushiftRight_zero]

/-- What is read of a written byte comes from what was kept and from the value. -/
theorem getBits_putBits_eq (other : Nat) :
    getBits other mask (putBits keep place value byte) =
      (byte >>> other &&& (keep >>> other &&& mask)) ||| ((value <<< place) >>> other &&& mask) := by
  rw [getBits, putBits, BitVec.ushiftRight_or_distrib, BitVec.ushiftRight_and_distrib, ← BitVec.and_assoc]
  apply BitVec.eq_of_getLsbD_eq
  intro bit _
  simp only [BitVec.getLsbD_and, BitVec.getLsbD_or, Bool.and_or_distrib_right]

/-- A field reads as it was written. -/
theorem getBits_putBits (clear : keep >>> place &&& mask = 0)
    (fits : (value <<< place) >>> place &&& mask = value) :
    getBits place mask (putBits keep place value byte) = value := by
  rw [getBits_putBits_eq, clear, fits]
  simp

variable {other : Nat} {within : Byte}

/-- A field that the written byte keeps, and that the value does not reach, reads as before. -/
theorem getBits_putBits_of_apart (kept : keep >>> other &&& mask = mask)
    (apart : (value <<< place) >>> other &&& mask = 0) :
    getBits other mask (putBits keep place value byte) = getBits other mask byte := by
  rw [getBits_putBits_eq, kept, apart]
  simp [getBits]

/-- A field that the written byte does not keep, and that the value does not reach, is cleared. -/
theorem getBits_putBits_of_clear (clear : keep >>> other &&& mask = 0)
    (apart : (value <<< place) >>> other &&& mask = 0) :
    getBits other mask (putBits keep place value byte) = 0 := by
  rw [getBits_putBits_eq, clear, apart]
  simp

theorem putBits_shiftRight_of_apart
    (kept : keep >>> other &&& BitVec.allOnes 8 >>> other = BitVec.allOnes 8 >>> other)
    (apart : (value <<< place) >>> other &&& BitVec.allOnes 8 >>> other = 0) :
    putBits keep place value byte >>> other = byte >>> other := by
  rw [shiftRight_eq_getBits other (putBits ..), getBits_putBits_of_apart kept apart,
    ← shiftRight_eq_getBits]

/-- Fields that do not reach each other are written in either order. -/
theorem putBits_comm {keeps bits : Byte} (kept : (value <<< place) &&& keeps = value <<< place)
    (same : (bits <<< other) &&& keep = bits <<< other) :
    putBits keep place value (putBits keeps other bits byte) =
      putBits keeps other bits (putBits keep place value byte) := by
  have spread : ∀ (first second third mask : Byte),
      ((first &&& second) ||| third) &&& mask = (first &&& second &&& mask) ||| (third &&& mask) := by
    intro first second third mask
    apply BitVec.eq_of_getLsbD_eq
    intro bit _
    simp only [BitVec.getLsbD_and, BitVec.getLsbD_or, Bool.and_or_distrib_right]
  simp only [putBits, spread, kept, same]
  rw [BitVec.or_assoc, BitVec.or_assoc, BitVec.or_comm (bits <<< other), BitVec.and_assoc,
    BitVec.and_assoc, BitVec.and_comm keeps]

theorem ite_and_one (flag : Bool) : (if flag then 1 else 0 : Byte) &&& 1 = if flag then 1 else 0 := by
  cases flag <;> rfl

/-- A flag reads as it was written. -/
theorem putBits_and_flag {flag : Bool} (clear : keep &&& mask = 0)
    (one : (1 : Byte) <<< place &&& mask ≠ 0) :
    decide (putBits keep place (if flag then 1 else 0) byte &&& mask ≠ 0) = flag := by
  rw [and_eq_getBits, getBits_putBits_eq]
  simp only [BitVec.ushiftRight_zero, clear]
  cases flag with
  | false => simp
  | true => simpa using one

/-- A value is kept where everything is kept that it may reach. -/
theorem shiftLeft_and {keeps : Byte} (fits : value &&& within = value)
    (kept : within <<< place &&& keeps = within <<< place) :
    value <<< place &&& keeps = value <<< place := by
  rw [← fits, BitVec.shiftLeft_and_distrib, BitVec.and_assoc, kept]

/-- A value that lies within others reads as it is where they do. -/
theorem shiftLeft_shiftRight_and (fits : value &&& within = value)
    (whole : within <<< place >>> place &&& mask = within) :
    (value <<< place) >>> place &&& mask = value := by
  apply BitVec.eq_of_getLsbD_eq
  intro bit inside
  have fitsBit := congrArg (BitVec.getLsbD · bit) fits
  have wholeBit := congrArg (BitVec.getLsbD · bit) whole
  simp only [BitVec.getLsbD_and, BitVec.getLsbD_ushiftRight, BitVec.getLsbD_shiftLeft,
    Nat.add_sub_cancel_left] at fitsBit wholeBit ⊢
  -- a bit of the value is one of the others, which the shifts and the mask let through
  cases set : value.getLsbD bit with
  | false => simp
  | true =>
    have among : within.getLsbD bit = true := by simpa [set] using fitsBit
    simpa [set, among] using wholeBit

/-- A value that lies within others is not read where they are not. -/
theorem shiftLeft_shiftRight_apart (fits : value &&& within = value)
    (apart : within <<< place >>> other &&& mask = 0) :
    (value <<< place) >>> other &&& mask = 0 := by
  rw [← fits, BitVec.shiftLeft_and_distrib, BitVec.ushiftRight_and_distrib, BitVec.and_assoc, apart]
  exact BitVec.and_zero

end

/-! ### Messages written field by field -/

/-- A write to a field of a message. -/
structure Write (Message Field : Type) where
  field : Field
  run : Message → Message

section
variable {Message Field : Type} (agrees : Field → Message → Message → Prop)

/-- Every field but its own reads the same after a write. -/
def Write.Quiet (write : Write Message Field) (message : Message) : Prop :=
  ∀ field, field ≠ write.field → agrees field message (write.run message)

/-- The message after all writes. -/
def runWrites (writes : List (Write Message Field)) (message : Message) : Message :=
  writes.foldl (fun message write => write.run message) message

/-- No write changes what another field holds when its turn comes. -/
def Undisturbed : List (Write Message Field) → Message → Prop
  | [], _ => True
  | write :: writes, message =>
      write.Quiet agrees message ∧ Undisturbed writes (write.run message)

variable {agrees}

theorem undisturbed_of_quiet {writes : List (Write Message Field)} (message : Message)
    (quiet : ∀ write ∈ writes, ∀ message, write.Quiet agrees message) :
    Undisturbed agrees writes message := by
  induction writes generalizing message with
  | nil => trivial
  | cons write writes ih =>
    constructor
    · exact quiet write (List.mem_cons_self ..) message
    · exact ih _ (List.forall_mem_cons.mp quiet).2

theorem undisturbed_append {first second : List (Write Message Field)} {message : Message} :
    Undisturbed agrees (first ++ second) message ↔
      Undisturbed agrees first message ∧ Undisturbed agrees second (runWrites first message) := by
  induction first generalizing message with
  | nil => simp [Undisturbed, runWrites]
  | cons write writes ih =>
    change _ ∧ Undisturbed agrees (writes ++ second) _ ↔ (_ ∧ _) ∧ _
    rw [ih, and_assoc]
    rfl

end
end WinOFED.Wire
