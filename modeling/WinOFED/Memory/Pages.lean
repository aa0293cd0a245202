import Mathlib

/-! Byte ranges of a 64-bit address space, and page lists that map one range after another.

A page list is read like a region that starts at address 0: byte `v` of the region is byte
`v % size` of its page `v / size`. -/
namespace WinOFED.Memory
open List

/-- The addresses of the `length` bytes from `start` on. -/
def bytesFrom (start : UInt64) (length : Nat) : List UInt64 :=
  (List.range length).map fun index => start + UInt64.ofNat index

variable (start : UInt64)

@[simp] theorem length_bytesFrom (length : Nat) : (bytesFrom start length).length = length := by
  simp [bytesFrom]

@[simp] theorem bytesFrom_zero : bytesFrom start 0 = [] := rfl

theorem getElem?_bytesFrom {start : UInt64} {length index : Nat} (inside : index < length) :
    (bytesFrom start length)[index]? = some (start + UInt64.ofNat index) := by
  simp [bytesFrom, inside]

theorem bytesFrom_add (first second : Nat) :
    bytesFrom start (first + second) =
      bytesFrom start first ++ bytesFrom (start + UInt64.ofNat first) second := by
  simp only [bytesFrom, range_add, map_append, map_map]
  congr 1
  apply map_congr_left
  intro index _
  simp [UInt64.ofNat_add, UInt64.add_assoc]

/-- The starts of `count` pages that follow one another. -/
def pageRun (size : Nat) (base : UInt64) (count : Nat) : List UInt64 :=
  (List.range count).map fun index => base + UInt64.ofNat (index * size)

variable (size : Nat)

theorem pageRun_succ (base : UInt64) (count : Nat) :
    pageRun size base (count + 1) = pageRun size base count ++ [base + UInt64.ofNat (count * size)] := by
  simp [pageRun, range_succ]

/-- The bytes of a page list, page after page. -/
def pageBytes (size : Nat) (pages : List UInt64) : List UInt64 :=
  pages.flatMap fun page => bytesFrom page size

theorem pageBytes_append (first second : List UInt64) :
    pageBytes size (first ++ second) = pageBytes size first ++ pageBytes size second :=
  List.flatMap_append

theorem length_pageBytes (pages : List UInt64) : (pageBytes size pages).length = pages.length * size := by
  induction pages with
  | nil => simp [pageBytes]
  | cons page rest ih =>
    simp only [pageBytes, flatMap_cons, length_append, length_bytesFrom] at ih ⊢
    rw [ih, length_cons, Nat.succ_mul, Nat.add_comm]

/-- Pages that follow one another are one range. -/
theorem pageBytes_pageRun (base : UInt64) (count : Nat) :
    pageBytes size (pageRun size base count) = bytesFrom base (count * size) := by
  induction count with
  | zero => simp [pageRun, pageBytes]
  | succ count ih =>
    rw [pageRun_succ, pageBytes_append, ih, Nat.succ_mul, bytesFrom_add]
    simp [pageBytes]

/-- Where a page list puts byte `index` of its region. -/
def pageLookup (size : Nat) (pages : List UInt64) (index : Nat) : Option UInt64 :=
  pages[index / size]?.map fun page => page + UInt64.ofNat (index % size)

theorem pageLookup_eq {size : Nat} (positive : 0 < size) (pages : List UInt64) (index : Nat) :
    pageLookup size pages index = (pageBytes size pages)[index]? := by
  induction pages generalizing index with
  | nil => simp [pageLookup, pageBytes]
  | cons page rest ih =>
    have split : pageBytes size (page :: rest) = bytesFrom page size ++ pageBytes size rest := by
      simp [pageBytes]
    rw [split]
    by_cases inside : index < size
    · rw [getElem?_append_left (by simpa using inside), getElem?_bytesFrom inside]
      simp [pageLookup, Nat.div_eq_of_lt inside, Nat.mod_eq_of_lt inside]
    · obtain ⟨later, rfl⟩ := Nat.exists_eq_add_of_le (Nat.not_lt.mp inside)
      rw [getElem?_append_right (by simp), length_bytesFrom, Nat.add_sub_cancel_left, ← ih]
      simp [pageLookup, Nat.add_div_left later positive]

/-- A part of a region, byte by byte. -/
theorem map_pageLookup {size : Nat} (positive : 0 < size) (pages : List UInt64)
    {offset length : Nat} (within : offset + length ≤ pages.length * size) :
    (List.range length).map (fun index => pageLookup size pages (offset + index)) =
      (((pageBytes size pages).drop offset).take length).map some := by
  apply ext_getElem?
  intro index
  by_cases inside : index < length
  · have there : offset + index < (pageBytes size pages).length := by
      rw [length_pageBytes]
      omega
    simp [inside, pageLookup_eq positive, there]
  · simp [inside]

end WinOFED.Memory
