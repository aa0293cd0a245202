import WinOFED.Cep.Kcep
import WinOFED.Memory.FreeList
import WinOFED.Transition.Machine

/-! The vector of communication IDs with its free list, which goes through the entries that
are not in use.

`CepMgr` has the free entries as a list. Here they are as in memory: a free entry has the
index of the next one where an entry in use has its CEP, and the last one the size of the
vector. -/
namespace WinOFED.Cep
open Memory Transition List Nat

/-! ### Communication IDs -/

theorem index_commId {cid : Nat} (small : cid < 2 ^ 24) (modifier : UInt8) :
    (commId cid modifier &&& cepMaxCidMask).toNat = cid := by
  have shifted : (modifier.toUInt32 <<< 24).toNat % 2 ^ 24 = 0 := by
    rw [UInt32.toNat_shiftLeft, mod_mod_of_dvd _ (by decide)]
    change modifier.toUInt32.toNat <<< 24 % 2 ^ 24 = 0
    rw [shiftLeft_eq, mul_mod_left]
  have whole : (UInt32.ofNat cid).toNat = cid := UInt32.toNat_ofNat_of_lt' (lt_trans small (by decide))
  rw [UInt32.toNat_and, show cepMaxCidMask.toNat = 2 ^ 24 - 1 from rfl,
    and_two_pow_sub_one_eq_mod, commId, UInt32.toNat_or, or_mod_two_pow, shifted, whole,
    or_zero, mod_eq_of_lt small]

/-! ### The vector -/

/-- What `p_cep` of an entry holds: a CEP, or the index of the next free entry. -/
inductive CidSlot
  | cep (cep : CepId)
  | index (next : Nat)
deriving DecidableEq, Repr

/-- `cep_cid_t`. -/
structure CidCell where
  hAl : Option Owner
  pCep : CidSlot
  modifier : UInt8
deriving DecidableEq, Repr

/-- What a CEP knows of its CID. -/
structure CidCep where
  cid : Nat
  localCommId : UInt32
deriving DecidableEq, Repr

/-- The CID vector and the CEPs. The owner of a CEP is who it was bound to last; it is
recorded to be compared with what the vector says. -/
structure CidTable where
  vector : Nat → CidCell
  size : Nat
  freeCid : Nat
  ceps : CepId → Option CidCep
  nextCep : CepId
  owners : CepId → Option Owner

namespace CidTable

variable (table : CidTable)

/-- Store an entry of the vector. -/
def setCell (cid : Nat) (cell : CidCell) : CidTable :=
  { table with vector := Function.update table.vector cid cell }

/-- Store or remove a CEP. -/
def setCep (cep : CepId) (kcep : Option CidCep) : CidTable :=
  { table with ceps := Function.update table.ceps cep kcep }

/-- Record the owner of a CEP. -/
def setOwner (cep : CepId) (owner : Option Owner) : CidTable :=
  { table with owners := Function.update table.owners cep owner }

/-- Set the head of the free list. -/
def setFree (cid : Nat) : CidTable := { table with freeCid := cid }

/-- `__cid_init`, which the vector calls for each element it adds. -/
def cidInit (cid : Nat) : CidTable :=
  { table with
    vector := Function.update table.vector cid ⟨none, .index (table.freeCid + 1), 0⟩
    freeCid := table.freeCid + 1
    size := table.size + 1 }

/-- `cl_vector_set_size` to a greater size, once there is memory for it. -/
def setSize (size : Nat) : CidTable :=
  (List.range' table.size (size - table.size)).foldl cidInit table

/-- `__get_lcid`; returns no CID if the vector has to grow and cannot. There is no result if
the entry is not one of the vector or not a free one. -/
def getLcid (grown : Bool) : Option (Option Nat × CidTable) :=
  let cid := table.freeCid
  if table.freeCid = table.size ∧ grown = false then some (none, table)
  else
    let table :=
      if table.freeCid = table.size then
        (table.setSize (table.size + cepCidGrow)).setFree table.size
      else table
    if cid < table.size then
      match (table.vector cid).pCep with
      | .index next => some (some cid, table.setFree next)
      | .cep _ => none
    else none

/-- `__create_cep`; returns no CEP if there is no memory or no CID. -/
def createCep (allocated grown : Bool) : Option (Option CepId × CidTable) :=
  if allocated then do
    let (lcid, table) ← table.getLcid grown
    match lcid with
    | none => some (none, table)
    | some cid =>
        let modifier := nextModifier cid (table.vector cid).modifier
        let cep := table.nextCep
        let table := table.setCell cid { table.vector cid with pCep := .cep cep, modifier }
        let table := (table.setCep cep (some ⟨cid, commId cid modifier⟩)).setOwner cep none
        some (some cep, { table with nextCep := cep + 1 })
  else some (none, table)

/-- `__bind_cep`. -/
def bindCep (cep : CepId) (owner : Owner) : Option CidTable := do
  let kcep ← table.ceps cep
  let table := table.setCell kcep.cid { table.vector kcep.cid with hAl := some owner }
  some (table.setOwner cep (some owner))

/-- `__unbind_cep`. -/
def unbindCep (cep : CepId) : Option CidTable := table.bindCep cep .internal

/-- The part of `al_cep_pre_req` that gives a CEP another communication ID. -/
def renumber (cep : CepId) : Option CidTable := do
  let kcep ← table.ceps cep
  let modifier := nextModifier kcep.cid (table.vector kcep.cid).modifier
  let table := table.setCell kcep.cid { table.vector kcep.cid with modifier }
  some (table.setCep cep (some { kcep with localCommId := commId kcep.cid modifier }))

/-- `__destroy_cep`. -/
def destroyCep (cep : CepId) : Option CidTable := do
  let kcep ← table.ceps cep
  let cell := { table.vector kcep.cid with pCep := .index table.freeCid, hAl := none }
  let table := (table.setCell kcep.cid cell).setFree kcep.cid
  some ((table.setCep cep none).setOwner cep none)

/-- `__lookup_cep`, with an AL handle or with none. -/
def lookupCep (handle : Option Owner) (cid : UInt32) : Option (Option CepId) :=
  let index := (cid &&& cepMaxCidMask).toNat
  if table.size ≤ index then some none
  else
    match (table.vector index).hAl, (table.vector index).pCep with
    | none, _ => some none
    | some _, .index _ => none
    | some owner, .cep cep =>
        match handle with
        | some handle => some (if owner = handle then some cep else none)
        | none => do
            let kcep ← table.ceps cep
            some (if kcep.localCommId = cid then some cep else none)

/-- `create_cep_mgr`: the vector has its first elements, and the one at zero is not used. -/
def create (memory : Nat → CidCell) : CidTable :=
  let empty : CidTable :=
    { vector := memory, size := 0, freeCid := 0, ceps := fun _ => none, nextCep := 0
      owners := fun _ => none }
  (empty.setSize cepCidGrow).setFree 1

end CidTable

/-- What happens to the vector, one section under the manager's lock each. A CEP that a client
allocates is bound after the lock was released. -/
inductive CidEvent
  | create (allocated grown : Bool)
  | bind (cep : CepId) (owner : Owner)
  | unbind (cep : CepId)
  | reuse (cep : CepId)
  | destroy (cep : CepId)

/-- The table after an event. -/
def CidTable.next (table : CidTable) : CidEvent → Option CidTable
  | .create allocated grown => (table.createCep allocated grown).map Prod.snd
  | .bind cep owner => table.bindCep cep owner
  | .unbind cep => table.unbindCep cep
  | .reuse cep => table.renumber cep
  | .destroy cep => table.destroyCep cep

/-- The table from its creation on. -/
def cidMachine : Machine CidTable CidEvent :=
  .ofNext (fun table => ∃ memory, table = CidTable.create memory) CidTable.next

namespace CidTable

/-! ### The free list -/

/-- The index in an entry. -/
def link (table : CidTable) (cid : Nat) : Nat :=
  match (table.vector cid).pCep with
  | .index next => next
  | .cep _ => 0

/-- An entry that no CEP has: it is bound to nobody. -/
def Unused (table : CidTable) (cid : Nat) : Prop :=
  0 < cid ∧ cid < table.size ∧ (table.vector cid).hAl = none ∧
    ∀ cep kcep, table.ceps cep = some kcep → kcep.cid ≠ cid

/-- Every entry but the first is free, belongs to one CEP, or is `taken`, on the way between
the two. -/
structure Sound (table : CidTable) (free : List Nat) (taken : Option Nat) : Prop where
  threaded : Threaded table.link table.size table.freeCid free
  nodup : free.Nodup
  unused : ∀ cid ∈ free, table.Unused cid ∧ ∃ next, (table.vector cid).pCep = .index next
  loose : ∀ cid, taken = some cid → table.Unused cid ∧ cid ∉ free
  used : ∀ {cep kcep}, table.ceps cep = some kcep → 0 < kcep.cid ∧ kcep.cid < table.size ∧
    (table.vector kcep.cid).hAl = table.owners cep ∧ (table.vector kcep.cid).pCep = .cep cep ∧
    kcep.localCommId = commId kcep.cid (table.vector kcep.cid).modifier
  every : ∀ cid, 0 < cid → cid < table.size → cid ∈ free ∨ taken = some cid ∨
    ∃ cep kcep, table.ceps cep = some kcep ∧ kcep.cid = cid
  reserved : 0 < table.size ∧ (table.vector 0).hAl = none
  fresh : ∀ cep, table.nextCep ≤ cep → table.ceps cep = none

variable {table : CidTable} {free : List Nat} {taken : Option Nat} {cid : Nat} {cep : CepId} {kcep : CidCep}

/-- Elements are added to a vector whose free list is empty. -/
theorem setSize_eq (empty : table.freeCid = table.size) (count : Nat) :
    table.setSize (table.size + count) =
      { table with
        vector := fun cid => if table.size ≤ cid ∧ cid < table.size + count then
          ⟨none, .index (cid + 1), 0⟩ else table.vector cid
        size := table.size + count
        freeCid := table.size + count } := by
  rw [setSize, Nat.add_sub_cancel_left]
  induction count with
  | zero =>
    obtain ⟨vector, size, _, ceps, nextCep, owners⟩ := table
    have none : ∀ cid, ¬ (size ≤ cid ∧ cid < size) := by omega
    cases empty
    simp only [range'_zero, foldl_nil, add_zero, none, if_false]
  | succ count ih =>
    rw [range'_concat, foldl_append, ih, one_mul]
    simp only [foldl_cons, foldl_nil, cidInit, mk.injEq, true_and]
    refine ⟨?_, add_assoc .., add_assoc .., trivial⟩
    funext cid
    rw [Function.update_apply]
    split_ifs with last <;> first | rfl | omega | rw [last]

theorem link_of_index {next : Nat} (free : (table.vector cid).pCep = .index next) :
    table.link cid = next := by rw [link, free]

/-- The vector grows when its free list has ended. -/
theorem Sound.grow (sound : table.Sound free none) (empty : table.freeCid = table.size) :
    ((table.setSize (table.size + cepCidGrow)).setFree table.size).Sound
      (List.range' table.size cepCidGrow) none := by
  obtain rfl := sound.threaded.eq_nil_iff.mpr empty
  rw [setSize_eq empty]
  have old : ∀ {cid}, cid < table.size → ¬ (table.size ≤ cid ∧ cid < table.size + cepCidGrow) := by omega
  obtain ⟨positive, reserved⟩ := sound.reserved
  refine ⟨?_, nodup_range', fun cid listed => ?_, fun _ => nofun, fun {cep kcep} here => ?_,
    fun cid positive below => ?_, ⟨?_, ?_⟩, sound.fresh⟩
  · refine Threaded.range' fun cid low high => ?_
    simp only [link, setFree, if_pos (And.intro low high)]
  · rw [mem_range'_1] at listed
    simp only [Unused, setFree, if_pos listed]
    refine ⟨⟨by omega, listed.2, trivial, fun cep kcep here same => ?_⟩, _, rfl⟩
    obtain ⟨_, below, _⟩ := sound.used here
    omega
  · obtain ⟨positive, below, rest⟩ := sound.used here
    simp only [setFree, if_neg (old below)]
    exact ⟨positive, by omega, rest⟩
  · simp only [setFree] at below
    by_cases inside : cid < table.size
    · obtain listed | ⟨⟨⟩⟩ | used := sound.every cid positive inside
      · cases listed
      · exact .inr (.inr used)
    · refine .inl (mem_range'_1.mpr ?_)
      omega
  · simp only [setFree]
    omega
  · simp only [setFree, if_neg (old positive)]
    exact reserved

/-- The first free entry is taken off the list. -/
theorem Sound.pop (sound : table.Sound (cid :: free) none) :
    (table.vector cid).pCep = .index (table.link cid) ∧ cid < table.size ∧ table.freeCid = cid ∧
      (table.setFree (table.link cid)).Sound free (some cid) := by
  obtain ⟨unused, next, index⟩ := sound.unused cid mem_cons_self
  obtain ⟨outside, nodup⟩ := nodup_cons.mp sound.nodup
  obtain ⟨head, _, later⟩ := sound.threaded
  refine ⟨index.trans (by rw [link_of_index index]), unused.2.1, head, later, nodup,
    (forall_mem_cons.mp sound.unused).2, ?_, sound.used, ?_,
    sound.reserved, sound.fresh⟩
  · rintro _ ⟨⟩
    exact ⟨unused, outside⟩
  · intro other positive below
    obtain listed | ⟨⟨⟩⟩ | used := sound.every other positive below
    · rcases mem_cons.mp listed with rfl | listed
      · exact .inr (.inl rfl)
      · exact .inl listed
    · exact .inr (.inr used)

/-- A new entry and the CEP that goes with it. -/
def put (table : CidTable) (cid : Nat) (cell : CidCell) (cep : CepId) (kcep : Option CidCep)
    (owner : Option Owner) : CidTable :=
  ((table.setCell cid cell).setCep cep kcep).setOwner cep owner

attribute [local simp] put setCell setCep setOwner

section
variable (sound : table.Sound free taken)
include sound

/-- What does not touch the free entries keeps the list. -/
theorem Sound.threaded_put (outside : cid ∉ free) (cell : CidCell) (cep : CepId)
    (kcep : Option CidCep) (owner : Option Owner) :
    Threaded (table.put cid cell cep kcep owner).link table.size table.freeCid free := by
  refine sound.threaded.congr fun other listed => ?_
  have apart : other ≠ cid := fun equal => outside (equal ▸ listed)
  simp [link, apart]

theorem Sound.notFree (here : table.ceps cep = some kcep) : kcep.cid ∉ free :=
  fun listed => (sound.unused _ listed).1.2.2.2 cep kcep here rfl

/-- Each entry has one CEP. -/
theorem Sound.cid_inj {other : CepId} {next : CidCep} (here : table.ceps cep = some kcep)
    (there : table.ceps other = some next) (same : next.cid = kcep.cid) : other = cep := by
  obtain ⟨_, _, _, first, _⟩ := sound.used here
  obtain ⟨_, _, _, second, _⟩ := sound.used there
  rw [same, first] at second
  injection second with equal
  exact equal.symm

end

/-- An entry that is not free changes with the CEP that has it or gets it. -/
theorem Sound.put {left : Option Nat} {cell : CidCell} {now : Option CidCep} {owner : Option Owner}
    (sound : table.Sound free taken) (outside : cid ∉ free) (positive : 0 < cid)
    (created : cep < table.nextCep)
    (own : ∀ {other next}, table.ceps other = some next → other ≠ cep → next.cid ≠ cid)
    (loose : ∀ index, left = some index → (table.put cid cell cep now owner).Unused index ∧ index ∉ free)
    (used : ∀ next, now = some next → next.cid = cid ∧ cid < table.size ∧ cell.hAl = owner ∧
      cell.pCep = .cep cep ∧ next.localCommId = commId cid cell.modifier)
    (every : ∀ index, taken = some index ∨ (∃ next, table.ceps cep = some next ∧ next.cid = index) →
      left = some index ∨ ∃ next, now = some next ∧ next.cid = index) :
    (table.put cid cell cep now owner).Sound free left := by
  refine ⟨sound.threaded_put outside .., sound.nodup, fun index listed => ?_, loose,
    fun {other next} there => ?_, fun index low high => ?_, ⟨sound.reserved.1, ?_⟩,
    fun other high => ?_⟩
  · obtain ⟨⟨low, high, hAl, unused⟩, next, link⟩ := sound.unused index listed
    have apart : index ≠ cid := fun equal => outside (equal ▸ listed)
    refine ⟨⟨low, high, ?_, fun other next there => ?_⟩, next, ?_⟩
    · simpa [apart] using hAl
    · obtain ⟨-, stored⟩ | ⟨-, kept⟩ := update_cases there
      · exact (used next stored).1 ▸ apart.symm
      · exact unused other next kept
    · simpa [apart] using link
  · obtain ⟨rfl, stored⟩ | ⟨apart, kept⟩ := update_cases there
    · obtain ⟨rfl, rest⟩ := used next stored
      simpa [positive] using rest
    · simpa [apart, own kept apart] using sound.used kept
  · have moved := fun was => (every index was).imp_right fun ⟨next, stored, same⟩ =>
      (⟨cep, next, by simp [stored], same⟩ : ∃ other next,
        (table.put cid cell cep now owner).ceps other = some next ∧ next.cid = index)
    obtain listed | was | ⟨other, next, there, same⟩ := sound.every index low high
    · exact .inl listed
    · exact .inr (moved (.inl was))
    · by_cases equal : other = cep
      · exact .inr (moved (.inr ⟨next, equal ▸ there, same⟩))
      · exact .inr (.inr ⟨other, next, by simpa [equal] using there, same⟩)
  · simpa [Nat.ne_of_lt positive] using sound.reserved.2
  · have apart : other ≠ cep := Nat.ne_of_gt (lt_of_lt_of_le created high)
    simpa [apart] using sound.fresh other high

theorem Sound.created (sound : table.Sound free taken) (here : table.ceps cep = some kcep) :
    cep < table.nextCep := by
  by_contra high
  cases here.symm.trans (sound.fresh cep (Nat.le_of_not_lt high))

/-- A CEP gives up its entry. -/
theorem Sound.drop (sound : table.Sound free none) (here : table.ceps cep = some kcep)
    {cell : CidCell} (unbound : cell.hAl = none) :
    (table.put kcep.cid cell cep none none).Sound free (some kcep.cid) := by
  obtain ⟨positive, below, _⟩ := sound.used here
  refine sound.put (sound.notFree here) positive (sound.created here)
    (fun there apart same => apart (sound.cid_inj here there same)) ?_ nofun ?_
  · rintro _ ⟨⟩
    refine ⟨⟨positive, below, by simpa using unbound, fun other next there same => ?_⟩, sound.notFree here⟩
    obtain ⟨-, ⟨⟩⟩ | ⟨apart, kept⟩ := update_cases there
    exact apart (sound.cid_inj here kept same)
  · rintro _ (⟨⟨⟩⟩ | ⟨next, there, rfl⟩)
    cases here.symm.trans there
    exact .inl rfl

/-- A CEP without an entry gets the one that was taken. -/
theorem Sound.fill (sound : table.Sound free (some cid)) (gone : table.ceps cep = none)
    (created : cep < table.nextCep) (owner : Option Owner) (modifier : UInt8) :
    (table.put cid ⟨owner, .cep cep, modifier⟩ cep (some ⟨cid, commId cid modifier⟩) owner).Sound
      free none := by
  obtain ⟨⟨positive, below, _, nobody⟩, outside⟩ := sound.loose cid rfl
  refine sound.put outside positive created (fun there _ => nobody _ _ there) (fun _ => nofun) ?_ ?_
  · rintro _ ⟨⟩
    exact ⟨rfl, below, rfl, rfl, rfl⟩
  · rintro _ (⟨⟨⟩⟩ | ⟨next, there, _⟩)
    · exact .inr ⟨_, rfl, rfl⟩
    · cases gone.symm.trans there

/-- A CEP keeps its entry and gets another owner or modifier. -/
theorem Sound.refill (sound : table.Sound free none) (here : table.ceps cep = some kcep)
    (owner : Option Owner) (modifier : UInt8) :
    (table.put kcep.cid ⟨owner, .cep cep, modifier⟩ cep
      (some ⟨kcep.cid, commId kcep.cid modifier⟩) owner).Sound free none := by
  have dropped := @Sound.drop table free cep kcep sound here ⟨none, .cep cep, modifier⟩ rfl
  simpa using dropped.fill (by simp) (sound.created here) owner modifier

/-- An entry that is taken is put in front of the free list. -/
theorem Sound.push (sound : table.Sound free (some cid))
    (linked : (table.vector cid).pCep = .index table.freeCid) :
    (table.setFree cid).Sound (cid :: free) none := by
  obtain ⟨unused, outside⟩ := sound.loose cid rfl
  refine ⟨sound.threaded.push (link_of_index linked) (Nat.ne_of_lt unused.2.1) fun _ _ => rfl,
    nodup_cons.mpr ⟨outside, sound.nodup⟩, ?_, fun _ => nofun, sound.used,
    fun other low high => ?_, sound.reserved, sound.fresh⟩
  · exact forall_mem_cons.mpr ⟨⟨unused, _, linked⟩, sound.unused⟩
  · obtain listed | ⟨⟨⟩⟩ | used := sound.every other low high
    · exact .inl (mem_cons_of_mem _ listed)
    · exact .inl mem_cons_self
    · exact .inr (.inr used)

/-! ### Events -/

/-- `__get_lcid` takes a free entry, or the vector could not grow. -/
theorem Sound.getLcid (sound : table.Sound free none) (grown : Bool) :
    table.getLcid grown = some (none, table) ∨
      ∃ cid after rest, table.getLcid grown = some (some cid, after) ∧
        after.Sound rest (some cid) ∧ after.nextCep = table.nextCep := by
  by_cases empty : table.freeCid = table.size
  · cases grown with
    | false => exact .inl (by simp [CidTable.getLcid, empty])
    | true =>
      have more : Sound _ (table.size :: range' (table.size + 1) (cepCidGrow - 1)) none := sound.grow empty
      obtain ⟨index, below, _, loose⟩ := more.pop
      refine .inr ⟨table.size, _, _, ?_, loose, by rw [setSize_eq empty]; rfl⟩
      simp [CidTable.getLcid, empty, below, index]
  · obtain ⟨rest, rfl, _⟩ := sound.threaded.pop empty
    obtain ⟨index, below, _, loose⟩ := sound.pop
    refine .inr ⟨table.freeCid, _, rest, ?_, loose, rfl⟩
    simp [CidTable.getLcid, empty, below, index]

theorem Sound.createCep (sound : table.Sound free none) (allocated grown : Bool) :
    ∃ created after rest, table.createCep allocated grown = some (created, after) ∧
      after.Sound rest none := by
  cases allocated with
  | false => exact ⟨none, table, free, rfl, sound⟩
  | true =>
    rcases sound.getLcid grown with full | ⟨cid, middle, rest, got, loose, _⟩
    · exact ⟨none, table, free, by simp [CidTable.createCep, full], sound⟩
    · have unbound := (loose.loose cid rfl).1.2.2.1
      have more : { middle with nextCep := middle.nextCep + 1 }.Sound rest (some cid) :=
        { loose with fresh := fun cep high => loose.fresh cep (le_of_succ_le high) }
      have filled := more.fill (loose.fresh _ (le_refl _)) (lt_succ_self _) none
        (nextModifier cid (middle.vector cid).modifier)
      refine ⟨some middle.nextCep, _, rest, ?_, filled⟩
      simp [CidTable.createCep, got, unbound]

section
variable {after : CidTable} (sound : table.Sound free none)
include sound

/-- `__bind_cep` and `__unbind_cep` change who an entry is bound to. -/
theorem Sound.bindCep {owner : Owner} (bound : table.bindCep cep owner = some after) :
    after.Sound free none := by
  obtain ⟨⟨cid, localCommId⟩, here, stored⟩ := Option.bind_eq_some_iff.mp bound
  obtain ⟨_, _, _, pCep, comm⟩ := sound.used here
  dsimp only at pCep comm
  subst comm
  have refilled := sound.refill here (some owner) (table.vector cid).modifier
  rw [← here] at refilled
  cases stored
  simpa [pCep] using refilled

theorem Sound.renumber (renumbered : table.renumber cep = some after) : after.Sound free none := by
  obtain ⟨kcep, here, stored⟩ := Option.bind_eq_some_iff.mp renumbered
  obtain ⟨_, _, hAl, pCep, _⟩ := sound.used here
  have refilled := sound.refill here (table.owners cep)
    (nextModifier kcep.cid (table.vector kcep.cid).modifier)
  cases stored
  simpa [pCep, hAl] using refilled

theorem Sound.destroyCep (destroyed : table.destroyCep cep = some after) :
    ∃ rest, after.Sound rest none := by
  obtain ⟨kcep, here, stored⟩ := Option.bind_eq_some_iff.mp destroyed
  have dropped := @Sound.drop table free cep kcep sound here
    ⟨none, .index table.freeCid, (table.vector kcep.cid).modifier⟩ rfl
  cases stored
  exact ⟨_, dropped.push (by simp)⟩

end

theorem create_sound (memory : Nat → CidCell) :
    (create memory).Sound (List.range' 1 (cepCidGrow - 1)) none := by
  have filled : create memory =
      { vector := fun cid => if 0 ≤ cid ∧ cid < 0 + cepCidGrow then ⟨none, .index (cid + 1), 0⟩
          else memory cid
        size := cepCidGrow, freeCid := 1, ceps := fun _ => none, nextCep := 0
        owners := fun _ => none } := by
    have grown := @setSize_eq ⟨memory, 0, 0, fun _ => none, 0, fun _ => none⟩ rfl cepCidGrow
    rw [zero_add] at grown
    rw [create, grown]
    rfl
  rw [filled]
  have inside : ∀ {cid}, cid < cepCidGrow → 0 ≤ cid ∧ cid < 0 + cepCidGrow := by omega
  refine ⟨?_, nodup_range', fun cid listed => ?_, fun _ => nofun, nofun,
    fun cid positive below => .inl ?_, ⟨succ_pos _, ?_⟩, fun _ _ => rfl⟩
  · change Threaded _ (1 + (cepCidGrow - 1)) 1 _
    refine Threaded.range' fun cid low high => ?_
    change cid < 170 at high
    simp only [link, if_pos (inside high)]
  · rw [mem_range'_1] at listed
    obtain ⟨low, high⟩ := listed
    change cid < 170 at high
    simp only [Unused, if_pos (inside high)]
    exact ⟨⟨low, high, trivial, nofun⟩, _, rfl⟩
  · rw [mem_range'_1]
    exact ⟨positive, below⟩
  · exact congrArg CidCell.hAl (if_pos (inside (by decide)))

theorem Sound.next {after : CidTable} {event : CidEvent} (sound : table.Sound free none)
    (taken : table.next event = some after) : ∃ rest, after.Sound rest none := by
  cases event with
  | create allocated grown =>
    obtain ⟨created, result, rest, made, held⟩ := sound.createCep allocated grown
    simp only [CidTable.next, made, Option.map_some, Option.some.injEq] at taken
    exact ⟨rest, taken ▸ held⟩
  | bind cep owner => exact ⟨free, sound.bindCep taken⟩
  | unbind cep => exact ⟨free, sound.bindCep taken⟩
  | reuse cep => exact ⟨free, sound.renumber taken⟩
  | destroy cep => exact sound.destroyCep taken

theorem sound_of_reached (reachable : cidMachine.Reachable (fun _ _ => True) table) :
    ∃ free, table.Sound free none := by
  induction reachable with
  | initial start =>
    obtain ⟨memory, rfl⟩ := start
    exact ⟨_, create_sound memory⟩
  | step _ _ taken ih =>
    obtain ⟨free, sound⟩ := ih
    exact sound.next taken

/-! ### What the lookups find -/

/-- A CEP is live from when it is bound to its owner, which completes its creation. -/
def Live (table : CidTable) (cep : CepId) (kcep : CidCep) : Prop :=
  table.ceps cep = some kcep ∧ (table.owners cep).isSome

/-- An index at which a lookup finds nothing is that of no live CEP; at the others the entry
has the live CEP and its owner. -/
theorem Sound.entry_cases (sound : table.Sound free none) (cid : Nat) :
    ((table.size ≤ cid ∨ (table.vector cid).hAl = none) ∧
      ∀ cep kcep, table.Live cep kcep → kcep.cid ≠ cid) ∨
    ∃ cep kcep owner, cid < table.size ∧ (table.vector cid).hAl = some owner ∧
      (table.vector cid).pCep = .cep cep ∧ table.ceps cep = some kcep ∧ kcep.cid = cid ∧
      table.owners cep = some owner := by
  by_cases outside : table.size ≤ cid
  · refine .inl ⟨.inl outside, fun cep kcep live same => ?_⟩
    obtain ⟨_, below, _⟩ := sound.used live.1
    omega
  by_cases zero : cid = 0
  · subst zero
    refine .inl ⟨.inr sound.reserved.2, fun cep kcep live same => ?_⟩
    obtain ⟨positive, _⟩ := sound.used live.1
    omega
  obtain listed | ⟨⟨⟩⟩ | ⟨cep, kcep, here, rfl⟩ :=
    sound.every cid (pos_of_ne_zero zero) (Nat.lt_of_not_le outside)
  · obtain ⟨_, _, unbound, nobody⟩ := (sound.unused cid listed).1
    exact .inl ⟨.inr unbound, fun cep kcep live => nobody cep kcep live.1⟩
  · obtain ⟨_, below, hAl, pCep, _⟩ := sound.used here
    cases owned : table.owners cep with
    | none =>
      refine .inl ⟨.inr (hAl.trans owned), fun other next live same => ?_⟩
      obtain rfl := sound.cid_inj here live.1 same
      have bound := live.2
      rw [owned] at bound
      cases bound
    | some owner => exact .inr ⟨cep, kcep, owner, below, hAl.trans owned, pCep, here, rfl, owned⟩

theorem lookupCep_none {cid : UInt32}
    (nothing : table.size ≤ (cid &&& cepMaxCidMask).toNat ∨
      (table.vector (cid &&& cepMaxCidMask).toNat).hAl = none) (handle : Option Owner) :
    table.lookupCep handle cid = some none := by
  by_cases outside : table.size ≤ (cid &&& cepMaxCidMask).toNat
  · exact if_pos outside
  · refine (if_neg outside).trans ?_
    rw [nothing.resolve_left outside]

theorem lookupCep_some {cid : UInt32} {owner : Owner}
    (below : (cid &&& cepMaxCidMask).toNat < table.size)
    (hAl : (table.vector (cid &&& cepMaxCidMask).toNat).hAl = some owner)
    (pCep : (table.vector (cid &&& cepMaxCidMask).toNat).pCep = .cep cep)
    (here : table.ceps cep = some kcep) (owned : table.owners cep = some owner)
    (handle : Option Owner) :
    ∃ found, table.lookupCep handle cid = some found ∧ ∀ other, found = some other ↔
      cep = other ∧ match handle with
        | some handle => table.owners cep = some handle
        | none => kcep.localCommId = cid := by
  simp only [CidTable.lookupCep, if_neg (Nat.not_le_of_lt below), hAl, pCep]
  cases handle <;> simp [here, owned, and_comm]

/-- `__lookup_cep` finds the live CEP at the index if it is the caller's, for a received MAD
if it has the communication ID. -/
theorem Sound.lookup (sound : table.Sound free none) (handle : Option Owner) (cid : UInt32) :
    ∃ found, table.lookupCep handle cid = some found ∧ ∀ cep, found = some cep ↔
      ∃ kcep, table.Live cep kcep ∧ kcep.cid = (cid &&& cepMaxCidMask).toNat ∧
        match handle with
        | some handle => table.owners cep = some handle
        | none => kcep.localCommId = cid := by
  rcases sound.entry_cases (cid &&& cepMaxCidMask).toNat with
    ⟨nothing, nobody⟩ | ⟨cep, kcep, owner, below, hAl, pCep, here, same, owned⟩
  · refine ⟨none, lookupCep_none nothing _, fun cep => ⟨nofun, ?_⟩⟩
    rintro ⟨kcep, live, same, _⟩
    exact absurd same (nobody cep kcep live)
  · obtain ⟨found, looked, exactly⟩ := lookupCep_some below hAl pCep here owned handle
    refine ⟨found, looked, fun other => (exactly other).trans ⟨?_, ?_⟩⟩
    · rintro ⟨rfl, asked⟩
      exact ⟨kcep, ⟨here, by simp [owned]⟩, same, asked⟩
    · rintro ⟨next, live, index, asked⟩
      obtain rfl := sound.cid_inj here live.1 (index.trans same.symm)
      cases here.symm.trans live.1
      exact ⟨rfl, asked⟩

section
variable (sound : table.Sound free none) (small : table.size < 2 ^ 24)
include sound small

theorem Sound.index (here : table.ceps cep = some kcep) :
    (kcep.localCommId &&& cepMaxCidMask).toNat = kcep.cid := by
  obtain ⟨_, below, _, _, comm⟩ := sound.used here
  rw [comm, index_commId (lt_trans below small)]

theorem Sound.lookup_mad (cid : UInt32) :
    ∃ found, table.lookupCep none cid = some found ∧ ∀ cep, found = some cep ↔
      ∃ kcep, table.Live cep kcep ∧ kcep.localCommId = cid := by
  obtain ⟨found, looked, exactly⟩ := sound.lookup none cid
  refine ⟨found, looked, fun cep => (exactly cep).trans (exists_congr fun kcep => ?_)⟩
  refine and_congr_right fun live => and_iff_right_of_imp ?_
  rintro rfl
  exact (sound.index small live.1).symm

/-- Communication IDs are not zero, and no two CEPs have the same. -/
theorem Sound.localCommId (here : table.ceps cep = some kcep) :
    kcep.localCommId ≠ 0 ∧ ∀ other next, table.ceps other = some next →
      next.localCommId = kcep.localCommId → other = cep := by
  constructor
  · intro zero
    have none := sound.index small here
    obtain ⟨positive, _⟩ := sound.used here
    rw [zero, show (0 &&& cepMaxCidMask : UInt32).toNat = 0 from rfl] at none
    omega
  · intro other next there same
    apply sound.cid_inj here there
    rw [← sound.index small here, ← sound.index small there, same]

end
end CidTable

/-- In every state that creations, uses for another REQ and destructions of CEPs lead to, with
the vector grown as often as there was memory: no two CEPs have one communication ID, and none
has zero; the free list goes once through every entry but the first that no CEP has; and a
lookup finds a CEP exactly if there is a live one with the communication ID, or at the index
and with the owner. -/
theorem cidTable_correct {table : CidTable}
    (reachable : cidMachine.Reachable (fun _ _ => True) table) (small : table.size < 2 ^ 24) :
    (∀ cep kcep, table.ceps cep = some kcep → kcep.localCommId ≠ 0 ∧
      ∀ other next, table.ceps other = some next → next.localCommId = kcep.localCommId →
        other = cep) ∧
    (∃ free, Threaded table.link table.size table.freeCid free ∧ free.Nodup ∧
      ∀ cid, cid ∈ free ↔ 0 < cid ∧ cid < table.size ∧
        ∀ cep kcep, table.ceps cep = some kcep → kcep.cid ≠ cid) ∧
    (∀ cid, ∃ found, table.lookupCep none cid = some found ∧ ∀ cep, found = some cep ↔
      ∃ kcep, table.Live cep kcep ∧ kcep.localCommId = cid) ∧
    ∀ handle cid, ∃ found, table.lookupCep (some handle) cid = some found ∧
      ∀ cep, found = some cep ↔ ∃ kcep, table.Live cep kcep ∧
        kcep.cid = (cid &&& cepMaxCidMask).toNat ∧ table.owners cep = some handle := by
  obtain ⟨free, sound⟩ := CidTable.sound_of_reached reachable
  refine ⟨fun cep kcep here => sound.localCommId small here,
    ⟨free, sound.threaded, sound.nodup, fun cid => ⟨fun listed => ?_, ?_⟩⟩, sound.lookup_mad small,
    fun handle => sound.lookup (some handle)⟩
  · obtain ⟨positive, below, _, nobody⟩ := (sound.unused cid listed).1
    exact ⟨positive, below, nobody⟩
  · rintro ⟨positive, below, nobody⟩
    obtain listed | ⟨⟨⟩⟩ | ⟨cep, kcep, here, same⟩ := sound.every cid positive below
    · exact listed
    · exact absurd same (nobody cep kcep here)

/-- A client's CEP that was numbered again for another REQ, after a second one has been
destroyed, is the one a MAD for it finds. -/
theorem cidTable_correct_small :
    ∃ table, cidMachine.Reachable (fun _ _ => True) table ∧ table.size < 2 ^ 24 ∧
      table.ceps 0 = some ⟨1, 0x02000001⟩ ∧ table.ceps 1 = none ∧
      table.lookupCep none 0x02000001 = some (some 0) := by
  obtain ⟨table, reachable, size, first, second, owner⟩ : ∃ table,
      cidMachine.Reachable (fun _ _ => True) table ∧
        table.size = 170 ∧ table.ceps 0 = some ⟨1, 0x02000001⟩ ∧ table.ceps 1 = none ∧
        table.owners 0 = some (.user 5) :=
    Machine.reaches_of_any ⟨fun _ => ⟨none, .index 0, 0⟩, rfl⟩
      [.create true true, .bind 0 (.user 5), .create true true, .bind 1 (.user 5), .reuse 0,
        .unbind 1, .destroy 1]
      (Machine.guarded_of_forall (fun _ _ => trivial) _ _) (by decide +kernel)
  have small : table.size < 2 ^ 24 := by omega
  obtain ⟨_, _, mads, _⟩ := cidTable_correct reachable small
  obtain ⟨found, looked, exactly⟩ := mads 0x02000001
  obtain rfl := (exactly 0).mpr ⟨_, ⟨first, by simp [owner]⟩, rfl⟩
  exact ⟨table, reachable, small, first, second, looked⟩

end WinOFED.Cep
