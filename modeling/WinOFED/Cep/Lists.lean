import WinOFED.Cep.Books

/-! The lists and maps of the CEP manager: REQs that wait to be polled, maps whose items
are the CEPs with a mark, CEPs that wait for their timer, and references. -/
namespace WinOFED.Cep
open Complib Transition List
open Function (update update_of_ne update_self)

/-! ### REQs in the lists of their listeners -/

/-- Of each CEP its list of MADs, and whether its state is that of a waiting CEP. -/
abbrev QueueBook := CepId → Option (List (Option CepId) × Bool)

/-- The lists of MADs of the manager. -/
def CepMgr.queueBook (mgr : CepMgr) : QueueBook :=
  mgr.view fun kcep => (kcep.madList, kcep.state.waiting)

namespace QueueBook

/-- A CEP is in the list of a listener. -/
def Queued (book : QueueBook) (cep : CepId) : Prop :=
  ∃ listener list flag, book listener = some (list, flag) ∧ some cep ∈ list

/-- The CEPs in the lists are waiting, and each is in one list once. -/
structure Sound (book : QueueBook) : Prop where
  waiting : ∀ {cep}, book.Queued cep → book cep = some ([], true)
  nodup : ∀ {listener list flag}, book listener = some (list, flag) → list.reduceOption.Nodup
  single : ∀ {one two list other flag mark cep}, book one = some (list, flag) →
    book two = some (other, mark) → some cep ∈ list → some cep ∈ other → one = two

variable {book : QueueBook}

section
variable (sound : book.Sound)
include sound

/-- The entry of a CEP is replaced by one with no more REQs. -/
theorem Sound.replace {cep : CepId} {entry : Option (List (Option CepId) × Bool)}
    (lost : ∀ {list flag new}, entry = some (list, flag) → some new ∈ list → ∃ old flag, book cep = some (old, flag) ∧ some new ∈ old)
    (nodup : ∀ {list flag}, entry = some (list, flag) → list.reduceOption.Nodup)
    (held : book.Queued cep → entry = some ([], true)) : Sound (update book cep entry) := by
  have back : ∀ {id list flag new}, update book cep entry id = some (list, flag) →
      some new ∈ list → ∃ old flag, book id = some (old, flag) ∧ some new ∈ old := by
    intro id list flag new changed member
    obtain ⟨rfl, stored⟩ | ⟨-, old⟩ := update_cases changed
    · exact lost stored member
    · exact ⟨list, flag, old, member⟩
  refine ⟨?_, fun {id list flag} changed => ?_, ?_⟩
  · rintro new ⟨listener, list, flag, changed, member⟩
    obtain ⟨old, _, before, inside⟩ := back changed member
    have queued : book.Queued new := ⟨_, _, _, before, inside⟩
    by_cases equal : new = cep
    · subst equal
      rw [update_self, held queued]
    · rw [update_of_ne equal]
      exact sound.waiting queued
  · obtain ⟨rfl, stored⟩ | ⟨-, old⟩ := update_cases changed
    · exact nodup stored
    · exact sound.nodup old
  · intro one two first second flag sign new inFirst inSecond here there
    obtain ⟨_, _, before, inside⟩ := back inFirst here
    obtain ⟨_, _, again, within⟩ := back inSecond there
    exact sound.single before again inside within

/-- A CEP changes its state, or its list loses REQs. -/
theorem Sound.change {cep : CepId} {list after : List (Option CepId)} {flag mark : Bool}
    (here : book cep = some (list, flag)) (fewer : after.reduceOption.Sublist list.reduceOption)
    (held : book.Queued cep → after = [] ∧ mark = true) :
    Sound (update book cep (some (after, mark))) := by
  refine sound.replace ?_ ?_ fun queued => ?_
  · rintro _ _ new ⟨⟩ member
    have kept := fewer.mem (reduceOption_mem_iff.mpr member)
    exact ⟨list, flag, here, reduceOption_mem_iff.mp kept⟩
  · rintro _ _ ⟨⟩
    exact (sound.nodup here).sublist fewer
  · obtain ⟨rfl, rfl⟩ := held queued
    rfl

/-- A REQ is put into the list of its listener. -/
theorem Sound.push {listener new : CepId} {list : List (Option CepId)} {flag : Bool}
    (here : book listener = some (list, flag)) (waiting : book new = some ([], true))
    (free : ¬ book.Queued new) (unqueued : ¬ book.Queued listener) (other : new ≠ listener) :
    Sound (update book listener (some (list ++ [some new], flag))) := by
  have back : ∀ {id one cep sign}, update book listener (some (list ++ [some new], flag)) id =
      some (one, sign) → some cep ∈ one →
      (∃ old, book id = some (old, sign) ∧ some cep ∈ old) ∨ id = listener ∧ cep = new := by
    intro id one cep sign changed member
    obtain ⟨rfl, ⟨⟩⟩ | ⟨-, before⟩ := update_cases changed
    · rcases mem_append.mp member with old | added
      · exact .inl ⟨_, here, old⟩
      · exact .inr ⟨rfl, by simpa using added⟩
    · exact .inl ⟨one, before, member⟩
  refine ⟨?_, fun {id one sign} changed => ?_, ?_⟩
  · rintro cep ⟨id, one, sign, changed, member⟩
    rcases back changed member with ⟨old, before, inside⟩ | ⟨_, rfl⟩
    · have queued : book.Queued cep := ⟨_, _, _, before, inside⟩
      rw [update_of_ne]
      · exact sound.waiting queued
      · rintro rfl
        exact unqueued queued
    · rw [update_of_ne other]
      exact waiting
  · obtain ⟨rfl, ⟨⟩⟩ | ⟨-, before⟩ := update_cases changed
    · rw [reduceOption_append, reduceOption_singleton, Option.toList_some]
      refine (perm_append_singleton ..).nodup_iff.mpr (nodup_cons.mpr ⟨?_, sound.nodup here⟩)
      exact fun inside => free ⟨_, _, _, here, reduceOption_mem_iff.mp inside⟩
    · exact sound.nodup before
  · intro one two first second flag sign cep inFirst inSecond here there
    rcases back inFirst here with ⟨_, before, inside⟩ | ⟨rfl, rfl⟩ <;>
      rcases back inSecond there with ⟨_, again, within⟩ | ⟨rfl, same⟩
    · exact sound.single before again inside within
    · exact absurd ⟨_, _, _, before, same ▸ inside⟩ free
    · exact absurd ⟨_, _, _, again, within⟩ free
    · rfl

/-- A CEP is created. -/
theorem Sound.create (cep : CepId) : Sound (update book cep (some ([], true))) := by
  refine sound.replace ?_ ?_ fun _ => rfl
  · rintro _ _ new ⟨⟩ member
    cases member
  · rintro _ _ ⟨⟩
    exact nodup_nil

/-- A CEP that is not waiting is freed. -/
theorem Sound.release {cep : CepId} (unqueued : ¬ book.Queued cep) : Sound (update book cep none) :=
  sound.replace nofun nofun fun queued => absurd queued unqueued

end
end QueueBook

variable {cep : CepId} {marks : CepId → Option Bool} {after : Option Bool} {list : List CepId}

theorem CepMgr.queued_iff {mgr : CepMgr} : mgr.Queued cep ↔ mgr.queueBook.Queued cep := by
  constructor
  · rintro ⟨listener, kcep, here, member⟩
    exact ⟨listener, _, _, CepMgr.view_of_ceps here _, member⟩
  · rintro ⟨listener, list, flag, shown, member⟩
    obtain ⟨kcep, here, same⟩ := Option.map_eq_some_iff.mp shown
    cases same
    exact ⟨listener, kcep, here, member⟩

/-! ### Maps of marked CEPs -/

/-- The items of a map are the CEPs with a mark. -/
def Marked (map : RbMap CepId) (marks : CepId → Option Bool) : Prop :=
  map.Contains fun cep => marks cep = some true

/-- A mark that is set in the map and in the CEP. -/
theorem Marked.set {grown : RbMap CepId}
    (contains : grown.Contains fun other => other = cep ∨ marks other = some true) :
    Marked grown (update marks cep (some true)) :=
  contains.congr fun other => by
    by_cases equal : other = cep
    · simp [equal]
    · simp [equal]

/-- A mark that is cleared in the map and in the CEP. -/
theorem Marked.clear {shorter : RbMap CepId} (unset : after ≠ some true)
    (contains : shorter.Contains fun other => other ≠ cep ∧ marks other = some true) :
    Marked shorter (update marks cep after) :=
  contains.congr fun other => by
    by_cases equal : other = cep
    · simp [equal, unset]
    · simp [equal]

/-- A CEP without the mark changes nothing in the map. -/
theorem Marked.other {map : RbMap CepId} (marked : Marked map marks) (unset : marks cep ≠ some true)
    (still : after ≠ some true) : Marked map (update marks cep after) :=
  marked.congr fun other => by
    by_cases equal : other = cep
    · simp [equal, unset, still]
    · simp [update_of_ne equal]

/-! ### Timewait -/

/-- The list holds the marked CEPs, each once. -/
structure Listed (list : List CepId) (marks : CepId → Option Bool) : Prop where
  nodup : list.Nodup
  listed : ∀ cep, cep ∈ list ↔ marks cep = some true

theorem Listed.append (listed : Listed list marks) (unset : marks cep ≠ some true) :
    Listed (list ++ [cep]) (update marks cep (some true)) := by
  have outside : cep ∉ list := mt (listed.listed cep).mp unset
  refine ⟨(perm_append_singleton ..).nodup_iff.mpr ?_, fun other => ?_⟩
  · exact nodup_cons.mpr ⟨outside, listed.nodup⟩
  · by_cases equal : other = cep
    · simp [equal]
    · simp [equal, listed.listed other]

theorem Listed.erase (listed : Listed list marks) (unset : after ≠ some true) :
    Listed (list.erase cep) (update marks cep after) := by
  refine ⟨listed.nodup.erase cep, fun other => ?_⟩
  rw [listed.nodup.mem_erase_iff]
  by_cases equal : other = cep
  · simp [equal, unset]
  · simp [equal, listed.listed other]

theorem Listed.other (listed : Listed list marks) (unset : marks cep ≠ some true)
    (still : after ≠ some true) : Listed list (update marks cep after) := by
  refine ⟨listed.nodup, fun other => ?_⟩
  by_cases equal : other = cep
  · simp [equal, unset, still, listed.listed]
  · simp [update_of_ne equal, listed.listed other]

/-! ### References -/

/-- The MADs that are sent and the callbacks that run, and of each CEP its reference count
and whether it has been cleaned up. -/
structure RefBook where
  sends : List (MadId × CepId)
  callbacks : List CepId
  ceps : CepId → Option (Int × Bool)

/-- The references that the manager counts. -/
def CepMgr.refBook (mgr : CepMgr) : RefBook :=
  ⟨mgr.sends, mgr.callbacks, mgr.view fun kcep => (kcep.refCnt, kcep.state.cleaned)⟩

namespace RefBook

/-- The references of a CEP that are taken for MADs and callbacks. -/
def taken (book : RefBook) (cep : CepId) : Nat :=
  (book.sends.map Prod.snd).count cep + book.callbacks.count cep

/-- The references are those that are taken and, until the CEP is cleaned up, one more. -/
structure Sound (book : RefBook) : Prop where
  counted : ∀ {cep refCnt cleaned}, book.ceps cep = some (refCnt, cleaned) →
    refCnt = (if cleaned then 0 else 1) + book.taken cep
  freed : ∀ {cep}, book.ceps cep = none → book.taken cep = 0

variable {book after : RefBook}

/-- A CEP changes, with the references that are taken for it. -/
theorem Sound.change (sound : book.Sound) {value : Option (Int × Bool)}
    (ceps : after.ceps = update book.ceps cep value)
    (others : ∀ other ≠ cep, after.taken other = book.taken other)
    (counted : ∀ refCnt cleaned, value = some (refCnt, cleaned) →
      refCnt = (if cleaned then 0 else 1) + after.taken cep)
    (freed : value = none → after.taken cep = 0) : after.Sound := by
  constructor
  · intro other refCnt cleaned here
    rw [ceps] at here
    obtain ⟨rfl, stored⟩ | ⟨apart, old⟩ := update_cases here
    · exact counted _ _ stored
    · rw [others other apart]
      exact sound.counted old
  · intro other here
    rw [ceps] at here
    obtain ⟨rfl, stored⟩ | ⟨apart, old⟩ := update_cases here
    · exact freed stored
    · rw [others other apart]
      exact sound.freed old

end RefBook
end WinOFED.Cep
