import WinOFED.Cep.Life

/-! The books of the CEP manager: every allocated CEP has its CID, its references are
counted, and it is in the lists its state says.

Each book reads only some fields of the CEPs, so that what changes other fields is none of
its business. -/
namespace WinOFED.Cep
open Complib RedBlack Transition Option Function List

namespace CepMgr

/-- What the CEPs say about something. -/
def view {β : Type*} (mgr : CepMgr) (field : Kcep → β) (cep : CepId) : Option β :=
  (mgr.ceps cep).map field

variable {β : Type*} {mgr : CepMgr} {cep : CepId} {kcep : Kcep}

@[simp] theorem ceps_setCep_self (mgr : CepMgr) (cep : CepId) (kcep : Kcep) :
    (mgr.setCep cep kcep).ceps cep = some kcep := if_pos rfl

theorem ceps_setCep_of_ne (mgr : CepMgr) {other : CepId} (kcep : Kcep) (ne : other ≠ cep) :
    (mgr.setCep cep kcep).ceps other = mgr.ceps other := if_neg ne

/-- After a CEP is stored, what is found is that CEP or one that was there before. -/
theorem of_ceps_setCep {id : CepId} {value : Kcep}
    (there : (mgr.setCep cep kcep).ceps id = some value) :
    id = cep ∧ value = kcep ∨ id ≠ cep ∧ mgr.ceps id = some value := by
  by_cases equal : id = cep
  · subst equal
    rw [ceps_setCep_self, some.injEq] at there
    exact .inl ⟨rfl, there.symm⟩
  · rw [ceps_setCep_of_ne _ _ equal] at there
    exact .inr ⟨equal, there⟩

@[simp] theorem setCep_setCep (mgr : CepMgr) (cep : CepId) (first second : Kcep) :
    (mgr.setCep cep first).setCep cep second = mgr.setCep cep second := by
  simp only [setCep, CepMgr.mk.injEq, and_self, and_true]
  funext id
  split <;> rfl

theorem setCep_same (here : mgr.ceps cep = some kcep) : mgr.setCep cep kcep = mgr := by
  have same : (fun id => if id = cep then some kcep else mgr.ceps id) = mgr.ceps := by
    funext id
    split
    next equal => rw [equal, here]
    next => rfl
  simp only [setCep, same]

theorem view_setCep (mgr : CepMgr) (cep : CepId) (kcep : Kcep) (field : Kcep → β) :
    (mgr.setCep cep kcep).view field = Function.update (mgr.view field) cep (some (field kcep)) := by
  funext id
  by_cases equal : id = cep
  · subst equal
    simp [view]
  · simp [view, ceps_setCep_of_ne mgr kcep equal, update_of_ne equal]

theorem view_of_ceps (here : mgr.ceps cep = some kcep) (field : Kcep → β) :
    mgr.view field cep = some (field kcep) := by simp [view, here]

/-- A view does not change with what it does not show. -/
theorem view_setCep_same (here : mgr.ceps cep = some kcep) {after : Kcep} {field : Kcep → β}
    (same : field after = field kcep) : (mgr.setCep cep after).view field = mgr.view field := by
  rw [view_setCep, same, ← view_of_ceps here, update_eq_self]

theorem update_eq_some {change : Kcep → Kcep} {after : CepMgr} :
    mgr.update cep change = some after ↔
      ∃ kcep, mgr.ceps cep = some kcep ∧ after = mgr.setCep cep (change kcep) := by
  simp only [update, bind_eq_bind, bind_eq_some_iff, some.injEq]
  exact ⟨fun ⟨kcep, here, same⟩ => ⟨kcep, here, same.symm⟩,
    fun ⟨kcep, here, same⟩ => ⟨kcep, here, same.symm⟩⟩

@[simp] theorem update_setCep (mgr : CepMgr) (cep : CepId) (kcep : Kcep) (change : Kcep → Kcep) :
    (mgr.setCep cep kcep).update cep change = some (mgr.setCep cep (change kcep)) := by
  simp [update]

end CepMgr

/-! ### What the basic functions do -/

/-- Replace the connection maps. -/
def CepMgr.setConn (mgr : CepMgr) (connIdMap connQpMap : RbMap CepId) : CepMgr :=
  { mgr with connIdMap, connQpMap }

variable {after mgr : CepMgr} {cep : CepId}

theorem removeCep_inv (removed : removeCep mgr cep = some after) :
    ∃ kcep connIdMap connQpMap, mgr.ceps cep = some kcep ∧
      removeMarked mgr.connIdMap cep kcep.remoteCommId = some connIdMap ∧
      removeMarked mgr.connQpMap cep kcep.remoteQpn = some connQpMap ∧
      after = (mgr.setConn connIdMap connQpMap).setCep cep
        { kcep with remoteCommId := 0, remoteQpn := 0 } := by
  simp only [removeCep, bind_eq_bind, bind_eq_some_iff, some.injEq] at removed
  obtain ⟨kcep, here, connIdMap, byId, connQpMap, byQpn, same⟩ := removed
  exact ⟨kcep, connIdMap, connQpMap, here, byId, byQpn, same.symm⟩

/-- `__insert_cep` changes the maps and, unless it succeeds, forgets the remote identifiers. -/
theorem insertCep_inv {misread : Misread} {result : Inserted}
    (inserted : insertCep mgr cep misread = some (result, after)) :
    ∃ kcep connIdMap connQpMap, mgr.ceps cep = some kcep ∧
      after = (mgr.setConn connIdMap connQpMap).setCep cep
        (if result = .inserted then kcep else { kcep with remoteQpn := 0, remoteCommId := 0 }) := by
  simp only [insertCep, bind_eq_bind, bind_eq_some_iff, Prod.exists] at inserted
  obtain ⟨kcep, here, byQpn, middle, first, inserted⟩ := inserted
  have first : middle = mgr.setConn mgr.connIdMap middle.connQpMap := by
    simp only [insertByQpn, bind_eq_bind, bind_eq_some_iff] at first
    obtain ⟨place, _, first⟩ := first
    split at first
    · cases first
      rfl
    · simp only [bind_eq_some_iff, some.injEq, Prod.mk.injEq] at first
      obtain ⟨_, _, _, rfl⟩ := first
      rfl
  rw [first] at inserted
  cases byQpn with
  | false =>
    cases inserted
    exact ⟨kcep, _, _, here, rfl⟩
  | true =>
    simp only [if_true, bind_eq_some_iff, Prod.exists] at inserted
    obtain ⟨found, last, second, inserted⟩ := inserted
    have second : last = mgr.setConn last.connIdMap middle.connQpMap := by
      simp only [insertById, bind_eq_bind, bind_eq_some_iff] at second
      obtain ⟨place, _, second⟩ := second
      split at second
      · cases second
        rfl
      · simp only [bind_eq_some_iff, some.injEq, Prod.mk.injEq] at second
        obtain ⟨_, _, _, rfl⟩ := second
        rfl
    rw [second] at inserted
    cases found with
    | none =>
      cases inserted
      have same : (mgr.setConn last.connIdMap middle.connQpMap).ceps cep = some kcep := here
      exact ⟨kcep, _, _, here, (CepMgr.setCep_same same).symm⟩
    | some other =>
      simp only [bind_eq_some_iff, some.injEq, Prod.mk.injEq] at inserted
      obtain ⟨connQpMap, _, rfl, rfl⟩ := inserted
      exact ⟨kcep, _, connQpMap, here, rfl⟩

theorem queueMad_inv {sendContext1 : Option CepId}
    (queued : queueMad mgr cep sendContext1 = some after) :
    ∃ kcep, mgr.ceps cep = some kcep ∧
      (kcep.state = .destroy ∧ after = mgr ∨
        kcep.state ≠ .destroy ∧
          after = mgr.setCep cep { kcep with madList := kcep.madList ++ [sendContext1] } ∨
        kcep.state ≠ .destroy ∧ kcep.madList = [] ∧
          after = { mgr with callbacks := cep :: mgr.callbacks }.setCep cep
            { kcep with
              madList := kcep.madList ++ [sendContext1]
              signalled := true, refCnt := kcep.refCnt + 1 }) := by
  simp only [queueMad, bind_eq_bind, bind_eq_some_iff] at queued
  obtain ⟨kcep, here, queued⟩ := queued
  refine ⟨kcep, here, ?_⟩
  split at queued
  next gone =>
    cases queued
    exact .inl ⟨gone, rfl⟩
  next alive =>
    split at queued
    · cases queued
      exact .inr (.inl ⟨alive, rfl⟩)
    next first =>
      cases queued
      simp only [ne_eq, not_or, not_not] at first
      exact .inr (.inr ⟨alive, first.1, rfl⟩)

theorem unbindCep_inv (unbound : unbindCep mgr cep = some after) :
    ∃ kcep, mgr.ceps cep = some kcep ∧ after = bindCep mgr kcep.cid (some .internal) := by
  simp only [unbindCep, bind_eq_bind, bind_eq_some_iff, some.injEq] at unbound
  obtain ⟨kcep, here, same⟩ := unbound
  exact ⟨kcep, here, same.symm⟩

/-- A new CEP gets a CID that was free, or the first of those added to the vector. -/
theorem createCep_inv {allocated grown : Bool}
    (created : createCep mgr allocated grown = some (cep, after)) :
    ∃ cid size free, cep = mgr.nextCep ∧
      (mgr.freeCids = cid :: free ∧ size = mgr.cidSize ∨
        cid = mgr.cidSize ∧ size = mgr.cidSize + cepCidGrow ∧ mgr.freeCids = [] ∧
          free = List.range' (mgr.cidSize + 1) (cepCidGrow - 1)) ∧
      after = ({ mgr with cidSize := size, freeCids := free, nextCep := mgr.nextCep + 1 }.setCid cid
        { mgr.cidVector cid with
          pCep := cep, modifier := nextModifier cid (mgr.cidVector cid).modifier }).setCep cep
            (newKcep cid (commId cid (nextModifier cid (mgr.cidVector cid).modifier))) := by
  unfold createCep at created
  split at created
  · simp only [bind_eq_bind, bind_eq_some_iff, Prod.exists, some.injEq, Prod.mk.injEq] at created
    obtain ⟨cid, middle, lcid, rfl, rfl⟩ := created
    unfold getLcid at lcid
    split at lcid
    next first free list =>
      cases lcid
      exact ⟨_, _, _, rfl, .inl ⟨list, rfl⟩, rfl⟩
    next none =>
      split at lcid
      · cases lcid
        exact ⟨_, _, _, rfl, .inr ⟨rfl, rfl, none, rfl⟩, rfl⟩
      · cases lcid
  · cases created

/-! ### The CID vector -/

/-- The CID vector, and of each CEP its CID and whether it has been cleaned up. -/
structure CidBook where
  vector : Nat → CidEntry
  size : Nat
  free : List Nat
  next : CepId
  ceps : CepId → Option (Nat × Bool)

/-- What the vector and the CEPs say about CIDs. -/
def CepMgr.cidBook (mgr : CepMgr) : CidBook :=
  ⟨mgr.cidVector, mgr.cidSize, mgr.freeCids, mgr.nextCep,
    mgr.view fun kcep => (kcep.cid, kcep.state.cleaned)⟩

namespace CidBook

/-- Every CEP has an entry of the vector, which is bound to a client only until the CEP is
cleaned up. -/
structure Sound (book : CidBook) : Prop where
  below : ∀ {cep cid cleaned}, book.ceps cep = some (cid, cleaned) → cep < book.next
  entry : ∀ {cep cid cleaned}, book.ceps cep = some (cid, cleaned) →
    (book.vector cid).pCep = cep ∧ cid < book.size ∧ cid ∉ book.free
  bound : ∀ {cid owner}, (book.vector cid).hAl = some owner →
    ∃ cleaned, book.ceps (book.vector cid).pCep = some (cid, cleaned)
  clients : ∀ {cep cid handle}, book.ceps cep = some (cid, true) →
    (book.vector cid).hAl ≠ some (.user handle)
  nodup : book.free.Nodup
  inside : ∀ cid ∈ book.free, cid < book.size

variable {book : CidBook}

/-- Change an entry of the vector. -/
def setEntry (book : CidBook) (cid : Nat) (entry : CidEntry) : CidBook :=
  { book with vector := fun index => if index = cid then entry else book.vector index }

section
variable (sound : book.Sound)
include sound

theorem Sound.setEntry {cid : Nat} {entry : CidEntry} (pCep : entry.pCep = (book.vector cid).pCep)
    (bound : ∀ owner, entry.hAl = some owner → ∃ cleaned, book.ceps (book.vector cid).pCep = some (cid, cleaned))
    (clients : ∀ handle, entry.hAl = some (.user handle) → (book.vector cid).hAl = some (.user handle)) :
    (book.setEntry cid entry).Sound where
  below := sound.below
  entry {cep index cleaned} here := by
    obtain ⟨same, rest⟩ := sound.entry here
    refine ⟨?_, rest⟩
    simp only [CidBook.setEntry]
    split
    next equal =>
      subst equal
      rw [pCep, same]
    next => exact same
  bound {index owner} := by
    simp only [CidBook.setEntry]
    split
    next equal =>
      subst equal
      intro owned
      rw [pCep]
      exact bound owner owned
    next => exact sound.bound
  clients {cep index handle} here := by
    simp only [CidBook.setEntry]
    split
    next equal =>
      subst equal
      exact fun owned => sound.clients here (clients handle owned)
    next => exact sound.clients here
  nodup := sound.nodup
  inside := sound.inside

/-- A CEP is cleaned up. -/
theorem Sound.clean {cid : Nat} {before : Bool} (here : book.ceps cep = some (cid, before))
    (unbound : ∀ handle, (book.vector cid).hAl ≠ some (.user handle)) :
    { book with ceps := Function.update book.ceps cep (some (cid, true)) }.Sound := by
  have back : ∀ {id index cleaned},
      update book.ceps cep (some (cid, true)) id = some (index, cleaned) →
      ∃ old, book.ceps id = some (index, old) := by
    intro id index cleaned changed
    obtain ⟨rfl, ⟨⟩⟩ | ⟨-, old⟩ := update_cases changed
    · exact ⟨before, here⟩
    · exact ⟨cleaned, old⟩
  refine ⟨fun changed => ?_, fun changed => ?_, fun {index owner} owned => ?_,
    fun {id index handle} changed => ?_, sound.nodup, sound.inside⟩
  · obtain ⟨_, old⟩ := back changed
    exact sound.below old
  · obtain ⟨_, old⟩ := back changed
    exact sound.entry old
  · obtain ⟨cleaned, old⟩ := sound.bound owned
    by_cases equal : (book.vector index).pCep = cep
    · refine ⟨true, ?_⟩
      rw [equal, here, some.injEq, Prod.mk.injEq] at old
      simp only [equal, update_self, old.1]
    · exact ⟨cleaned, by simpa only [update_of_ne equal] using old⟩
  · obtain ⟨rfl, ⟨⟩⟩ | ⟨-, old⟩ := update_cases changed
    · exact unbound handle
    · exact sound.clients old

/-- A CEP is created with a CID that is free. -/
theorem Sound.create {cid size : Nat} {free : List Nat} {entry : CidEntry}
    (taken : book.free = cid :: free ∧ size = book.size ∨ cid = book.size ∧ size = book.size + cepCidGrow ∧ book.free = [] ∧ free = List.range' (book.size + 1) (cepCidGrow - 1))
    (pCep : entry.pCep = book.next) : { book.setEntry cid entry with
      size, free, next := book.next + 1
      ceps := Function.update book.ceps book.next (some (cid, false)) }.Sound := by
  have unused : ∀ {id index cleaned}, book.ceps id = some (index, cleaned) → index ≠ cid := by
    rintro id index cleaned old rfl
    obtain ⟨_, below, notFree⟩ := sound.entry old
    rcases taken with ⟨first, _⟩ | ⟨rfl, _⟩
    · simp [first] at notFree
    · exact Nat.lt_irrefl _ below
  have new : ∀ {id index cleaned}, book.ceps id = some (index, cleaned) → id ≠ book.next :=
    fun old => Nat.ne_of_lt (sound.below old)
  have grown : book.size ≤ size := by
    rcases taken with ⟨_, rfl⟩ | ⟨_, rfl, _⟩ <;> omega
  have fits : cid < size ∧ cid ∉ free ∧ free.Nodup ∧ ∀ index ∈ free, index < size := by
    rcases taken with ⟨first, rfl⟩ | ⟨rfl, rfl, _, rfl⟩
    · have nodup := sound.nodup
      have inside := sound.inside
      rw [first] at nodup inside
      obtain ⟨fresh, nodup⟩ := nodup_cons.mp nodup
      exact ⟨inside _ (mem_cons_self ..), fresh, nodup, (forall_mem_cons.mp inside).2⟩
    · refine ⟨by simp [cepCidGrow], by rw [mem_range'_1]; omega, nodup_range', ?_⟩
      intro index member
      rw [mem_range'_1] at member
      simp only [cepCidGrow] at member ⊢
      omega
  refine ⟨fun {id index cleaned} changed => ?_, fun {id index cleaned} changed => ?_,
    fun {index owner} owned => ?_, fun {id index handle} changed => ?_, fits.2.2.1, fits.2.2.2⟩
  · obtain ⟨rfl, -⟩ | ⟨-, old⟩ := update_cases changed
    · exact Nat.lt_succ_self _
    · exact Nat.lt_succ_of_lt (sound.below old)
  · obtain ⟨rfl, ⟨⟩⟩ | ⟨-, old⟩ := update_cases changed
    · exact ⟨by simp [CidBook.setEntry, pCep], fits.1, fits.2.1⟩
    · obtain ⟨same, below, notFree⟩ := sound.entry old
      refine ⟨by simp [CidBook.setEntry, unused old, same], Nat.lt_of_lt_of_le below grown, ?_⟩
      rcases taken with ⟨first, _⟩ | ⟨_, _, _, rfl⟩
      · exact fun member => notFree (first ▸ mem_cons_of_mem _ member)
      · rw [mem_range'_1]
        omega
  · by_cases equal : index = cid
    · subst equal
      exact ⟨false, by simp [CidBook.setEntry, pCep]⟩
    · simp only [CidBook.setEntry, equal, if_false] at owned ⊢
      obtain ⟨cleaned, old⟩ := sound.bound owned
      exact ⟨cleaned, by rwa [update_of_ne (new old)]⟩
  · obtain ⟨-, ⟨⟩⟩ | ⟨-, old⟩ := update_cases changed
    simpa [CidBook.setEntry, unused old] using sound.clients old

/-- A CEP is freed. -/
theorem Sound.release {cid : Nat} {cleaned : Bool} {entry : CidEntry}
    (here : book.ceps cep = some (cid, cleaned)) (unbound : entry.hAl = none) :
    { book.setEntry cid entry with
      free := cid :: book.free
      ceps := Function.update book.ceps cep none }.Sound := by
  obtain ⟨pCep, inside, notFree⟩ := sound.entry here
  have other : ∀ {id index cleaned},
      update book.ceps cep none id = some (index, cleaned) →
      book.ceps id = some (index, cleaned) ∧ index ≠ cid := by
    intro id index cleaned changed
    obtain ⟨-, ⟨⟩⟩ | ⟨ne, old⟩ := update_cases changed
    refine ⟨old, ?_⟩
    rintro rfl
    exact ne ((sound.entry old).1.symm.trans pCep)
  refine ⟨fun changed => sound.below (other changed).1, fun {id index cleaned} changed => ?_,
    fun {index owner} owned => ?_, fun {id index handle} changed => ?_,
    nodup_cons.mpr ⟨notFree, sound.nodup⟩, ?_⟩
  · obtain ⟨old, ne⟩ := other changed
    obtain ⟨same, below, outside⟩ := sound.entry old
    exact ⟨by simp [CidBook.setEntry, ne, same], below, by simp [ne, outside]⟩
  · by_cases equal : index = cid
    · simp [CidBook.setEntry, equal, unbound] at owned
    · simp only [CidBook.setEntry, equal, if_false] at owned ⊢
      obtain ⟨cleaned, old⟩ := sound.bound owned
      refine ⟨cleaned, ?_⟩
      rw [update_of_ne, old]
      intro same
      rw [same, here] at old
      exact equal (congrArg Prod.fst (some.inj old)).symm
  · obtain ⟨old, ne⟩ := other changed
    simpa [CidBook.setEntry, ne] using sound.clients old
  · exact forall_mem_cons.mpr ⟨inside, sound.inside⟩

end
end CidBook
end WinOFED.Cep
