import WinOFED.Mad.DispatchTables

/-! Runs of a MAD dispatcher.

`Slots` says who holds references on the entries of the client vector, so that an entry
in use is not given to another service. `Owners` says that the dispatch tables name
registered services only. -/
namespace WinOFED.Mad.Dispatch
open DispSys Option
open Transition (update_cases)
variable {sys after : DispSys} {disp : MadDisp} {svc : MadSvc} {env : RegEnv} {id : Nat}

/-- The entry of the client vector an unfinished send refers to. -/
def DispSys.slotOf (sys : DispSys) (id : Nat) : Option Nat :=
  (sys.wrs id).map (·.wr.clientId.toNat)

/-- Unfinished sends that refer to an entry. -/
def DispSys.sending (sys : DispSys) (reg : Nat) : Nat :=
  sys.inFlight.countP fun id => sys.slotOf id = some reg

/-- The service of the entry is registered there. -/
def DispSys.holds (sys : DispSys) (reg : Nat) (entry : MadReg) : Nat :=
  if sys.handles entry.hMadSvc = some reg then 1 else 0

/-- How the entries of the client vector are used. -/
structure Slots (sys : DispSys) : Prop where
  ids : ∀ {reg : Nat} {entry : MadReg}, sys.disp.clientVector[reg]? = some entry →
    entry.clientId.toNat = reg
  below : ∀ {svc reg}, sys.regs svc = some reg → svc < sys.nextSvc
  kept : ∀ {svc reg}, sys.regs svc = some reg → reg < sys.disp.clientVector.length
  posted : ∀ {id posted}, sys.wrs id = some posted → (sys.regs posted.svc).isSome
  reg : ∀ {svc reg}, sys.handles svc = some reg → sys.regs svc = some reg
  slot : ∀ {svc reg}, sys.handles svc = some reg →
    ∃ entry, sys.disp.clientVector[reg]? = some entry ∧ entry.hMadSvc = svc
  refs : ∀ {reg entry}, sys.disp.clientVector[reg]? = some entry →
    entry.refCnt = sys.holds reg entry + sys.sending reg
  nodup : sys.inFlight.Nodup
  flight : ∀ {id}, id ∈ sys.inFlight → ∃ posted entry, sys.wrs id = some posted ∧
    sys.disp.clientVector[posted.wr.clientId.toNat]? = some entry ∧
    entry.hMadSvc = posted.holder

theorem slots_create : Slots createDispSys where
  ids {reg entry} here := by
    obtain ⟨below, rfl⟩ := List.getElem?_eq_some_iff.mp here
    obtain rfl : reg = 0 := Nat.lt_one_iff.mp below
    rfl
  below impossible := nomatch impossible
  kept impossible := nomatch impossible
  posted impossible := nomatch impossible
  reg impossible := nomatch impossible
  slot impossible := nomatch impossible
  refs {reg entry} here := by
    obtain ⟨below, rfl⟩ := List.getElem?_eq_some_iff.mp here
    obtain rfl : reg = 0 := Nat.lt_one_iff.mp below
    rfl
  nodup := List.nodup_nil
  flight impossible := nomatch impossible

namespace Slots

section
variable (slots : Slots sys)
include slots

/-- The entry of a registered service is in use. -/
theorem refCnt_pos {svc reg : Nat} (registered : sys.handles svc = some reg)
    {entry : MadReg} (here : sys.disp.clientVector[reg]? = some entry) : 0 < entry.refCnt := by
  obtain ⟨known, found, service⟩ := slots.slot registered
  obtain rfl := some.inj (found.symm.trans here)
  rw [slots.refs here, holds, service, if_pos registered]
  omega

/-- So is the entry of an unfinished send. -/
theorem refCnt_pos_of_flight {reg : Nat} (flying : id ∈ sys.inFlight)
    (slot : sys.slotOf id = some reg) {entry : MadReg}
    (here : sys.disp.clientVector[reg]? = some entry) : 0 < entry.refCnt := by
  have counted : 0 < sys.sending reg := List.countP_pos_iff.mpr ⟨id, flying, by simp [slot]⟩
  rw [slots.refs here]
  omega

/-- The entry that the next registration takes belongs to no service. -/
theorem ne_freeSlot {svc reg : Nat} (registered : sys.handles svc = some reg) :
    reg ≠ sys.disp.freeSlot := by
  rintro rfl
  obtain ⟨entry, here, -⟩ := slots.slot registered
  have free := freeSlot_refCnt _ here
  have used := slots.refCnt_pos registered here
  omega

theorem slotOf_ne_freeSlot (flying : id ∈ sys.inFlight) : sys.slotOf id ≠ some sys.disp.freeSlot := by
  intro slot
  obtain ⟨posted, entry, found, here, -⟩ := slots.flight flying
  have same : posted.wr.clientId.toNat = sys.disp.freeSlot := by
    simpa [slotOf, found] using slot
  rw [same] at here
  have free := freeSlot_refCnt _ here
  have used := slots.refCnt_pos_of_flight flying slot here
  omega

theorem sending_freeSlot : sys.sending sys.disp.freeSlot = 0 := by
  refine List.countP_eq_zero.mpr fun id flying => ?_
  simpa using slots.slotOf_ne_freeSlot flying

end
end Slots

theorem getElem?_setReg {reg : Nat} {entry changed : MadReg}
    (here : disp.clientVector[reg]? = some entry) (other : Nat) :
    (disp.setReg reg changed).clientVector[other]? =
      if other = reg then some changed else disp.clientVector[other]? := by
  have below : reg < disp.clientVector.length := (List.getElem?_eq_some_iff.mp here).1
  by_cases same : other = reg
  · subst same
    simp [MadDisp.setReg, below]
  · simp [MadDisp.setReg, same, List.getElem?_set_ne (Ne.symm same)]

/-- A changed reference count changes nothing else about the entries. -/
theorem lookup_setReg {reg slot : Nat} {entry known : MadReg}
    (here : disp.clientVector[reg]? = some entry) (count : Int)
    (found : disp.clientVector[slot]? = some known) :
    ∃ refCnt, (disp.setReg reg { entry with refCnt := count }).clientVector[slot]? =
      some { known with refCnt } := by
  rw [getElem?_setReg here]
  by_cases same : slot = reg
  · subst same
    obtain rfl := some.inj (found.symm.trans here)
    exact ⟨count, if_pos rfl⟩
  · exact ⟨known.refCnt, (if_neg same).trans found⟩

/-- The system after a registration. -/
def DispSys.registered (sys : DispSys) (svc : MadSvc) (env : RegEnv) : DispSys :=
  { sys with
    disp := (madDispReg sys.disp sys.nextSvc svc env).1
    nextSvc := sys.nextSvc + 1
    handles := Function.update sys.handles sys.nextSvc (madDispReg sys.disp sys.nextSvc svc env).2
    regs := Function.update sys.regs sys.nextSvc (madDispReg sys.disp sys.nextSvc svc env).2 }

/-- The system after the deregistration of a service at `reg`. -/
def DispSys.deregistered (sys : DispSys) (svc reg : Nat) (entry : MadReg)
    (versionVector : VersionVector) : DispSys :=
  { sys with
    disp := { sys.disp with versionVector }.setReg reg { entry with refCnt := entry.refCnt - 1 }
    handles := Function.update sys.handles svc none }

/-- The system after a send is posted, with the header it is posted with. -/
def DispSys.sent (sys : DispSys) (id reg : Nat) (entry : MadReg) (posted : Posted)
    (requests : List Request) : DispSys :=
  { sys with
    disp := sys.disp.setReg reg { entry with refCnt := entry.refCnt + 1 }
    wrs := Function.update sys.wrs id (some posted)
    inFlight := id :: sys.inFlight
    requests }

/-- The system after a send is done. -/
def DispSys.completed (sys : DispSys) (id : Nat) (entry : MadReg) (posted : Posted) : DispSys :=
  { sys with
    disp := sys.disp.setReg posted.wr.clientId.toNat { entry with refCnt := entry.refCnt - 1 }
    wrs := Function.update sys.wrs id (some posted)
    inFlight := sys.inFlight.erase id }

namespace Slots

section
variable (slots : Slots sys)
include slots

theorem register (svc : MadSvc) (env : RegEnv) : Slots (sys.registered svc env) := by
  have fresh : sys.handles sys.nextSvc = none :=
    eq_none_iff_forall_ne_some.mpr fun reg old => Nat.lt_irrefl _ (slots.below (slots.reg old))
  have others {reg : Nat} (other : reg ≠ sys.disp.freeSlot) :=
    madDispReg_other sys.disp sys.nextSvc svc env other
  refine ⟨fun here => madDispReg_clientId _ _ _ _ slots.ids here, fun {service reg} now => ?_,
    fun {service reg} now => ?_, fun {id posted} found => ?_, fun {service reg} now => ?_,
    fun {service reg} now => ?_, fun {reg entry} here => ?_, slots.nodup, fun {id} flying => ?_⟩
  · obtain ⟨rfl, -⟩ | ⟨-, old⟩ := update_cases now
    · exact Nat.lt_succ_self _
    · exact Nat.lt_succ_of_lt (slots.below old)
  · obtain ⟨rfl, done⟩ | ⟨-, old⟩ := update_cases now
    · obtain ⟨rfl, -, entry, -⟩ := madDispReg_done _ _ _ _ done
      exact (List.getElem?_eq_some_iff.mp entry).1
    · exact Nat.lt_of_lt_of_le (slots.kept old) (length_madDispReg _ _ _ _)
  · obtain ⟨reg, old⟩ := isSome_iff_exists.mp (slots.posted found)
    have different : posted.svc ≠ sys.nextSvc := (slots.below old).ne
    simp [registered, different, old]
  · obtain ⟨rfl, done⟩ | ⟨different, old⟩ := update_cases now
    · exact (Function.update_self ..).trans done
    · exact (Function.update_of_ne different ..).trans (slots.reg old)
  · obtain ⟨rfl, done⟩ | ⟨-, old⟩ := update_cases now
    · obtain ⟨rfl, -, entry, -⟩ := madDispReg_done _ _ _ _ done
      exact ⟨_, entry, rfl⟩
    · obtain ⟨entry, here, service⟩ := slots.slot old
      exact ⟨entry, (others (slots.ne_freeSlot old)).trans here, service⟩
  · have sending : (sys.registered svc env).sending reg = sys.sending reg := rfl
    rw [sending]
    by_cases slot : reg = sys.disp.freeSlot
    · subst slot
      rw [slots.sending_freeSlot]
      cases done : (madDispReg sys.disp sys.nextSvc svc env).2 with
      | none =>
        rw [(madDispReg_failed _ _ _ _ done).1 entry here, holds, if_neg]
        · rfl
        · intro now
          obtain ⟨-, impossible⟩ | ⟨-, old⟩ := update_cases now
          · rw [done] at impossible
            cases impossible
          · exact slots.ne_freeSlot old rfl
      | some reg =>
        obtain ⟨rfl, -, entered, -⟩ := madDispReg_done _ _ _ _ done
        obtain rfl := some.inj (entered.symm.trans here)
        simp [holds, registered, done]
    · have old := (others slot).symm.trans here
      rw [slots.refs old, holds, holds]
      congr 2
      by_cases new : entry.hMadSvc = sys.nextSvc
      · have missing : (madDispReg sys.disp sys.nextSvc svc env).2 ≠ some reg :=
          fun done => slot (madDispReg_done _ _ _ _ done).1
        simp [registered, new, fresh, missing]
      · simp [registered, new]
  · obtain ⟨posted, entry, found, here, service⟩ := slots.flight flying
    refine ⟨posted, entry, found, ?_, service⟩
    refine (others fun same => ?_).trans here
    exact slots.slotOf_ne_freeSlot flying (by simp [slotOf, found, same])

/-- An entry is that of one service. -/
theorem handles_inj {svc other reg : Nat} (registered : sys.handles svc = some reg)
    (also : sys.handles other = some reg) : other = svc := by
  obtain ⟨known, found, service⟩ := slots.slot registered
  obtain ⟨same, there, otherService⟩ := slots.slot also
  obtain rfl := some.inj (found.symm.trans there)
  exact otherService.symm.trans service

variable {reg : Nat} {entry : MadReg} (here : sys.disp.clientVector[reg]? = some entry)
include here

theorem slot_setReg (count : Int) {svc slot : Nat} (registered : sys.handles svc = some slot) :
    ∃ found, (sys.disp.setReg reg { entry with refCnt := count }).clientVector[slot]? = some found ∧
      found.hMadSvc = svc := by
  obtain ⟨known, found, service⟩ := slots.slot registered
  obtain ⟨refCnt, now⟩ := lookup_setReg here count found
  exact ⟨_, now, service⟩

theorem ids_setReg (count : Int) {slot : Nat} {found : MadReg}
    (now : (sys.disp.setReg reg { entry with refCnt := count }).clientVector[slot]? = some found) :
    found.clientId.toNat = slot := by
  rw [getElem?_setReg here] at now
  split at now
  next same =>
    cases now
    exact (slots.ids here).trans same.symm
  next => exact slots.ids now

omit here in
theorem kept_setReg (changed : MadReg) {svc slot : Nat} (registered : sys.regs svc = some slot) :
    slot < (sys.disp.setReg reg changed).clientVector.length := by
  rw [MadDisp.setReg, List.length_set]
  exact slots.kept registered

theorem flight_setReg (count : Int) (flying : id ∈ sys.inFlight) :
    ∃ posted found, sys.wrs id = some posted ∧ (sys.disp.setReg reg
        { entry with refCnt := count }).clientVector[posted.wr.clientId.toNat]? = some found ∧
      found.hMadSvc = posted.holder := by
  obtain ⟨posted, known, wr, found, owner⟩ := slots.flight flying
  obtain ⟨refCnt, now⟩ := lookup_setReg here count found
  exact ⟨posted, _, wr, now, owner⟩

/-- A changed reference count. -/
theorem refs_setReg {change : Int} {slot : Nat} {found : MadReg}
    (now : (sys.disp.setReg reg { entry with refCnt := entry.refCnt + change }).clientVector[slot]? =
      some found) :
    found.refCnt = sys.holds slot found + sys.sending slot + if slot = reg then change else 0 := by
  rw [getElem?_setReg here] at now
  split at now
  next same =>
    subst same
    cases now
    rw [if_pos rfl]
    exact congrArg (· + change) (slots.refs here)
  next other => rw [slots.refs now, if_neg other, Int.add_zero]

theorem deregister {svc : Nat} (registered : sys.handles svc = some reg)
    (versionVector : VersionVector) :
    Slots (sys.deregistered svc reg entry versionVector) := by
  obtain ⟨known, found, service⟩ := slots.slot registered
  obtain rfl := some.inj (found.symm.trans here)
  have lookup (other : Nat) :
      (sys.deregistered svc reg known versionVector).disp.clientVector[other]? =
        if other = reg then some { known with refCnt := known.refCnt - 1 }
        else sys.disp.clientVector[other]? :=
    @getElem?_setReg { sys.disp with versionVector } reg known _ here other
  have back {other slot : Nat}
      (now : (sys.deregistered svc reg known versionVector).handles other = some slot) :
      sys.handles other = some slot := by
    obtain ⟨-, ⟨⟩⟩ | ⟨-, old⟩ := update_cases now
    exact old
  refine ⟨fun now => slots.ids_setReg here _ now, slots.below, fun now => slots.kept_setReg _ now,
    slots.posted, fun now => slots.reg (back now), fun now => slots.slot_setReg here _ (back now),
    fun {slot entry} now => ?_, slots.nodup, fun flying => slots.flight_setReg here _ flying⟩
  · have sending : (sys.deregistered svc reg known versionVector).sending slot = sys.sending slot := rfl
    rw [lookup] at now
    rw [sending]
    by_cases same : slot = reg
    · subst same
      rw [if_pos rfl, some.injEq] at now
      subst now
      have counted := slots.refs here
      rw [holds, service, if_pos registered] at counted
      rw [holds]
      simp only [deregistered, service, Function.update_self]
      simp only [reduceCtorEq, if_false]
      omega
    · rw [if_neg same] at now
      rw [slots.refs now, holds, holds]
      congr 2
      by_cases owner : entry.hMadSvc = svc
      · simp [deregistered, owner, registered, Ne.symm same]
      · simp [deregistered, owner]

theorem send {id : Nat} {posted : Posted} (requests : List Request)
    (registered : sys.regs posted.svc = some reg) (client : posted.wr.clientId = entry.clientId)
    (holder : posted.holder = entry.hMadSvc) (idle : id ∉ sys.inFlight) :
    Slots (sys.sent id reg entry posted requests) := by
  have index := slots.ids here
  have slotId : (sys.sent id reg entry posted requests).slotOf id = some reg := by
    simp [slotOf, sent, client, index]
  have slotOther {other : Nat} (flying : other ∈ sys.inFlight) :
      (sys.sent id reg entry posted requests).slotOf other = sys.slotOf other := by
    have different : other ≠ id := fun same => idle (same ▸ flying)
    simp [slotOf, sent, different]
  have sending (slot : Nat) : (sys.sent id reg entry posted requests).sending slot =
      sys.sending slot + if slot = reg then 1 else 0 := by
    change List.countP _ (id :: sys.inFlight) = _
    rw [List.countP_cons]
    congr 1
    · refine List.countP_congr fun other flying => ?_
      rw [slotOther flying]
    · simp [slotId, @eq_comm _ slot]
  refine ⟨fun now => slots.ids_setReg here _ now, slots.below, fun now => slots.kept_setReg _ now,
    fun {other found} now => ?_, slots.reg, fun now => slots.slot_setReg here _ now,
    fun {slot found} now => ?_, List.nodup_cons.mpr ⟨idle, slots.nodup⟩, fun {other} flying => ?_⟩
  · obtain ⟨rfl, ⟨⟩⟩ | ⟨-, old⟩ := update_cases now
    · exact isSome_iff_exists.mpr ⟨reg, registered⟩
    · exact slots.posted old
  · rw [sending, slots.refs_setReg here now]
    change (sys.holds slot found + sys.sending slot + if slot = reg then 1 else 0 : Int) =
      sys.holds slot found + _
    split <;> omega
  · rcases List.mem_cons.mp flying with rfl | old
    · refine ⟨posted, { entry with refCnt := entry.refCnt + 1 }, by simp [sent], ?_, holder.symm⟩
      rw [client, index]
      exact (getElem?_setReg here reg).trans (if_pos rfl)
    · obtain ⟨other_, found, wr, rest⟩ := slots.flight_setReg here (entry.refCnt + 1) old
      have different : other ≠ id := fun same => idle (same ▸ old)
      exact ⟨other_, found, by simp [sent, different, wr], rest⟩

omit here in
theorem complete {id : Nat} {before posted : Posted} (flying : id ∈ sys.inFlight)
    (found : sys.wrs id = some before) (client : posted.wr.clientId = before.wr.clientId)
    (service : posted.svc = before.svc)
    (here : sys.disp.clientVector[posted.wr.clientId.toNat]? = some entry) :
    Slots (sys.completed id entry posted) := by
  have slotId : sys.slotOf id = some posted.wr.clientId.toNat := by
    simp [slotOf, found, client]
  have slotOther (other : Nat) : (sys.completed id entry posted).slotOf other = sys.slotOf other := by
    by_cases same : other = id
    · subst same
      rw [slotId]
      simp [slotOf, completed]
    · simp [slotOf, completed, same]
  have sending (slot : Nat) : (sys.completed id entry posted).sending slot +
      (if slot = posted.wr.clientId.toNat then 1 else 0) = sys.sending slot := by
    have split := (List.perm_cons_erase flying).countP_eq fun other => sys.slotOf other = some slot
    rw [List.countP_cons] at split
    change List.countP _ (sys.inFlight.erase id) + _ = List.countP _ sys.inFlight
    rw [split]
    congr 1
    · refine List.countP_congr fun other _ => ?_
      rw [slotOther]
    · simp [slotId, @eq_comm _ slot]
  refine ⟨fun now => slots.ids_setReg here _ now, slots.below, fun now => slots.kept_setReg _ now,
    fun {other changed} now => ?_, slots.reg, fun now => slots.slot_setReg here _ now,
    fun {slot found} now => ?_, slots.nodup.erase id, fun {other} still => ?_⟩
  · obtain ⟨rfl, ⟨⟩⟩ | ⟨-, old⟩ := update_cases now
    · exact service ▸ slots.posted found
    · exact slots.posted old
  · have counted := sending slot
    rw [slots.refs_setReg here now]
    change (sys.holds slot found + sys.sending slot + if slot = posted.wr.clientId.toNat then -1
      else 0 : Int) = sys.holds slot found + _
    split_ifs at counted ⊢ <;> omega
  · obtain ⟨different, old⟩ := (List.Nodup.mem_erase_iff slots.nodup).mp still
    obtain ⟨other_, found, wr, rest⟩ := slots.flight_setReg here (entry.refCnt - 1) old
    exact ⟨other_, found, by simp [completed, different, wr], rest⟩

end
end Slots

/-! ### Owners -/

/-- The dispatch tables name registered services, under their own version and class. -/
structure Owners (sys : DispSys) : Prop where
  owned : ∀ {version cls method reg}, sys.disp.owner version cls method = some reg →
    method < maxMethod ∧ ∃ svc entry, sys.handles svc = some reg ∧
      sys.disp.clientVector[reg]? = some entry ∧ entry.supportUnsol = true ∧
      version = mgmtVersionIndex entry.mgmtVersion ∧ cls = mgmtClassIndex entry.mgmtClass
  tables : ∀ {svc reg entry}, sys.handles svc = some reg →
    sys.disp.clientVector[reg]? = some entry → entry.supportUnsol = true →
    ∃ methods, methodVector sys.disp.versionVector (mgmtVersionIndex entry.mgmtVersion)
      (mgmtClassIndex entry.mgmtClass) = some methods

theorem owners_create : Owners createDispSys where
  owned {version cls method reg} owned := by
    exfalso
    rw [MadDisp.owner_eq, ownerIn_eq_bind] at owned
    obtain ⟨classes, atVersion, owned⟩ := bind_eq_some_iff.mp owned
    obtain ⟨methods, atClass, owned⟩ := bind_eq_some_iff.mp owned
    have first := List.mem_of_getElem? atVersion
    simp only [createDispSys, createMadDisp, List.mem_singleton] at first
    subst first
    obtain rfl : methods = [] := List.eq_of_mem_replicate (List.mem_of_getElem? atClass)
    cases owned
  tables impossible := nomatch impossible

namespace Owners

/-- The owner's version and class are those of its entry. -/
theorem only (owners : Owners sys) {reg : Nat} {entry : MadReg}
    (here : sys.disp.clientVector[reg]? = some entry) {version cls method : Nat}
    (owned : ownerIn sys.disp.versionVector version cls method = some reg) :
    entry.supportUnsol = true ∧ version = mgmtVersionIndex entry.mgmtVersion ∧
      cls = mgmtClassIndex entry.mgmtClass := by
  rw [← MadDisp.owner_eq] at owned
  obtain ⟨-, svc, known, -, found, rest⟩ := owners.owned owned
  obtain rfl := some.inj (found.symm.trans here)
  exact rest

theorem register (slots : Slots sys) (owners : Owners sys) (svc : MadSvc) (env : RegEnv) :
    Owners (sys.registered svc env) := by
  have keep {service reg : Nat} (old : sys.handles service = some reg) :
      (sys.registered svc env).handles service = some reg := by
    have different : service ≠ sys.nextSvc := (slots.below (slots.reg old)).ne
    simp [registered, different, old]
  have others {reg : Nat} (other : reg ≠ sys.disp.freeSlot) :
      (sys.registered svc env).disp.clientVector[reg]? = sys.disp.clientVector[reg]? :=
    madDispReg_other sys.disp sys.nextSvc svc env other
  have carry {version cls method reg : Nat} (old : sys.disp.owner version cls method = some reg) :
      method < maxMethod ∧ ∃ service entry, (sys.registered svc env).handles service = some reg ∧
        (sys.registered svc env).disp.clientVector[reg]? = some entry ∧ entry.supportUnsol = true ∧
        version = mgmtVersionIndex entry.mgmtVersion ∧ cls = mgmtClassIndex entry.mgmtClass := by
    obtain ⟨below, service, entry, registered, here, rest⟩ := owners.owned old
    exact ⟨below, service, entry, keep registered, (others (slots.ne_freeSlot registered)).trans here, rest⟩
  refine ⟨fun {version cls method reg} owned => ?_, fun {service reg entry} now here unsol => ?_⟩
  · cases done : (madDispReg sys.disp sys.nextSvc svc env).2 with
    | none => exact carry (((madDispReg_failed _ _ _ _ done).2 _ _ _).symm.trans owned)
    | some slot =>
      obtain ⟨rfl, -, entered, tables, available⟩ := madDispReg_done _ _ _ _ done
      have owner := (MadDisp.owner_eq _ _ _ _).symm.trans owned
      rw [show (sys.registered svc env).disp.versionVector = _ from tables, ownerIn_regTables] at owner
      split at owner
      next unsol =>
        rw [recorded] at owner
        split at owner
        next asked =>
          cases owner
          refine ⟨asked.2.2.1, sys.nextSvc, _, ?_, entered, unsol.1, asked.1, asked.2.1⟩
          simp [registered, done]
        next => exact carry ((MadDisp.owner_eq _ _ _ _).trans owner)
      next => exact carry ((MadDisp.owner_eq _ _ _ _).trans owner)
  · obtain ⟨rfl, done⟩ | ⟨-, old⟩ := update_cases now
    · obtain ⟨rfl, -, entered, tables, available⟩ := madDispReg_done _ _ _ _ done
      obtain rfl := some.inj (entered.symm.trans here)
      rw [show (sys.registered svc env).disp.versionVector = _ from tables]
      rw [regTables, if_pos unsol] at available ⊢
      exact methodVector_of_madDispRegUnsol _ _ _ _ available
    · obtain ⟨methods, found⟩ := owners.tables old ((others (slots.ne_freeSlot old)).symm.trans here) unsol
      exact methodVector_madDispReg _ _ _ _ found

theorem deregister (slots : Slots sys) (owners : Owners sys) {svc reg : Nat} {entry : MadReg}
    {versions : VersionVector} (registered : sys.handles svc = some reg)
    (here : sys.disp.clientVector[reg]? = some entry)
    (dereg : deregMethods sys.disp.versionVector reg entry = some versions) :
    Owners (sys.deregistered svc reg entry versions) := by
  have owner := deregMethods_owner dereg fun _ _ _ owned => owners.only here owned
  have lookup {other : Nat} (different : other ≠ reg) :
      (sys.deregistered svc reg entry versions).disp.clientVector[other]? = sys.disp.clientVector[other]? :=
    (@getElem?_setReg { sys.disp with versionVector := versions } reg entry _ here other).trans
      (if_neg different)
  have apart {service other : Nat} (old : sys.handles service = some other)
      (different : service ≠ svc) : other ≠ reg := by
    rintro rfl
    exact different (slots.handles_inj registered old)
  refine ⟨fun {version cls method other} owned => ?_, fun {service other found} now at_ unsol => ?_⟩
  · have now := (MadDisp.owner_eq _ _ _ _).symm.trans owned
    change ownerIn versions version cls method = some other at now
    rw [owner] at now
    split at now
    next => cases now
    next different =>
      obtain ⟨below, service, known, old, found, rest⟩ :=
        owners.owned ((MadDisp.owner_eq _ _ _ _).trans now)
      have other_ne : other ≠ reg := by
        rintro rfl
        exact different now
      have service_ne : service ≠ svc := by
        rintro rfl
        exact other_ne (some.inj (old.symm.trans registered))
      refine ⟨below, service, known, ?_, (lookup other_ne).trans found, rest⟩
      simp [deregistered, service_ne, old]
  · obtain ⟨-, ⟨⟩⟩ | ⟨service_ne, old⟩ := update_cases now
    obtain ⟨methods, before⟩ := owners.tables old ((lookup (apart old service_ne)).symm.trans at_) unsol
    exact methodVector_deregMethods dereg before

/-- A changed reference count changes no owner. -/
theorem setReg (owners : Owners sys) {reg : Nat} {entry : MadReg} (count : Int)
    (here : sys.disp.clientVector[reg]? = some entry)
    (disp : after.disp = sys.disp.setReg reg { entry with refCnt := count })
    (handles : after.handles = sys.handles) : Owners after := by
  have back {other : Nat} {found : MadReg} (now : after.disp.clientVector[other]? = some found) :
      ∃ old, sys.disp.clientVector[other]? = some old ∧ found.supportUnsol = old.supportUnsol ∧
        found.mgmtVersion = old.mgmtVersion ∧ found.mgmtClass = old.mgmtClass := by
    rw [disp, getElem?_setReg here] at now
    split at now
    next same =>
      cases now
      exact ⟨entry, same ▸ here, rfl, rfl, rfl⟩
    next => exact ⟨found, now, rfl, rfl, rfl⟩
  have versions : after.disp.versionVector = sys.disp.versionVector := by rw [disp]; rfl
  refine ⟨fun {version cls method other} owned => ?_, fun {service other found} now at_ unsol => ?_⟩
  · rw [MadDisp.owner_eq, versions, ← MadDisp.owner_eq] at owned
    obtain ⟨below, service, known, old, found, rest⟩ := owners.owned owned
    obtain ⟨refCnt, now⟩ := lookup_setReg here count found
    rw [handles, disp]
    exact ⟨below, service, _, old, now, rest⟩
  · obtain ⟨old, there, unsolicited, version, cls⟩ := back at_
    rw [versions, version, cls]
    exact owners.tables (handles ▸ now) there (unsolicited ▸ unsol)

end Owners

/-! ### Steps -/

/-- The work request as `__mad_disp_queue_send` posts it for the registration `entry`. -/
def Posted.queue (posted : Posted) (entry : MadReg) : Posted :=
  let hdr := posted.wr.hdr
  let transId := if useTidRouting hdr true then alSetAlTid (alSetAlTid hdr.transId 0) entry.clientId
    else hdr.transId
  { posted with
    wr := { hdr := { hdr with transId }, clientTid := hdr.transId, clientId := entry.clientId
            queued := true }
    holder := entry.hMadSvc }

/-- The transaction ID its MAD has on the wire. -/
def Posted.wireTid (posted : Posted) (entry : MadReg) : UInt64 :=
  if posted.apart then posted.wr.hdr.transId else (posted.queue entry).wr.hdr.transId

/-- The history with the work request. -/
def DispSys.logged (sys : DispSys) (posted : Posted) (entry : MadReg) : List Request :=
  if useTidRouting posted.wr.hdr true then
    ⟨posted.svc, posted.userTid, posted.wireTid entry, posted.apart⟩ :: sys.requests
  else sys.requests

/-- The work request as `mad_disp_send_done` leaves it. -/
def Posted.done (posted : Posted) : Posted :=
  let wr := posted.wr
  { posted with wr := { wr with hdr := { wr.hdr with transId := wr.clientTid }, queued := false } }

/-- The events that post a work request. -/
inductive Posting (sys : DispSys) : DispEvent → Nat → Posted → Prop
  | send (svc id : Nat) (hdr : MadHdr) (apart : Bool) :
      Posting sys (.send svc id hdr apart) id ⟨⟨hdr, 0, 0, false⟩, svc, hdr.transId, apart, svc⟩
  | resend {id : Nat} {posted : Posted} : sys.wrs id = some posted →
      Posting sys (.resend id) id posted

/-- What an event does. -/
inductive DispStep (sys : DispSys) : DispEvent → DispSys → Prop
  | register (svc : MadSvc) (env : RegEnv) :
      DispStep sys (.register svc env) (sys.registered svc env)
  | deregister {svc reg : Nat} {entry : MadReg} {versions : VersionVector} :
      sys.handles svc = some reg → sys.disp.clientVector[reg]? = some entry →
      deregMethods sys.disp.versionVector reg entry = some versions →
      DispStep sys (.deregister svc) (sys.deregistered svc reg entry versions)
  | post {event : DispEvent} {id reg : Nat} {entry : MadReg} {posted : Posted} :
      Posting sys event id posted → id ∉ sys.inFlight → sys.regs posted.svc = some reg →
      sys.disp.clientVector[reg]? = some entry →
      DispStep sys event
        (sys.sent id reg entry (posted.queue entry) (sys.logged posted entry))
  | sendDone {id : Nat} {entry : MadReg} {posted : Posted} :
      id ∈ sys.inFlight → sys.wrs id = some posted →
      sys.disp.clientVector[posted.wr.clientId.toNat]? = some entry →
      DispStep sys (.sendDone id) (sys.completed id entry posted.done)
  | recv (hdr : MadHdr) : DispStep sys (.recv hdr) sys

/-- Every lawful event is defined, and is one of the steps. -/
theorem next_step (slots : Slots sys) (owners : Owners sys) {event : DispEvent}
    (lawful : LawfulDisp sys event) : ∃ after, sys.next event = some after ∧ DispStep sys event after := by
  have posting {id : Nat} {posted : Posted} (shape : Posting sys event id posted)
      (idle : id ∉ sys.inFlight) (registered : (sys.regs posted.svc).isSome) :
      ∃ after, sys.post id posted = some after ∧ DispStep sys event after := by
    obtain ⟨reg, handle⟩ := isSome_iff_exists.mp registered
    obtain ⟨entry, here⟩ : ∃ entry, sys.disp.clientVector[reg]? = some entry :=
      ⟨_, List.getElem?_eq_getElem (slots.kept handle)⟩
    refine ⟨_, ?_, .post shape idle handle here⟩
    simp only [post, handle, madDispQueueSend, here, bind_eq_bind, bind_some]
    rfl
  cases event with
  | register svc env => exact ⟨_, rfl, .register svc env⟩
  | deregister svc =>
    obtain ⟨reg, registered⟩ := isSome_iff_exists.mp lawful
    obtain ⟨entry, here, -⟩ := slots.slot registered
    have defined : ∃ versions, deregMethods sys.disp.versionVector reg entry = some versions := by
      rw [deregMethods]
      split
      next unsol =>
        obtain ⟨methods, found⟩ := owners.tables registered here unsol
        simp [found]
      next => exact ⟨_, rfl⟩
    obtain ⟨versions, dereg⟩ := defined
    refine ⟨_, ?_, .deregister registered here dereg⟩
    simp only [next, registered, madDispDereg, here, dereg, bind_eq_bind, bind_some]
    rfl
  | send svc id hdr apart => exact posting (.send svc id hdr apart) lawful.2 lawful.1
  | resend id =>
    obtain ⟨idle, some⟩ := lawful
    obtain ⟨posted, found⟩ := isSome_iff_exists.mp some
    obtain ⟨after, eq, step⟩ := posting (.resend found) idle (slots.posted found)
    exact ⟨after, by simp [next, found, eq], step⟩
  | sendDone id =>
    obtain ⟨posted, entry, found, here, -⟩ := slots.flight lawful
    refine ⟨_, ?_, .sendDone lawful found here⟩
    simp only [next, found, madDispSendDone, here, bind_eq_bind, bind_some]
    rfl
  | recv hdr => exact ⟨sys, rfl, .recv hdr⟩

theorem DispStep.slots {event : DispEvent} (step : DispStep sys event after)
    (slots : Slots sys) : Slots after := by
  cases step with
  | register svc env => exact slots.register svc env
  | deregister registered here dereg => exact slots.deregister here registered _
  | @post event id reg entry posted shape idle registered here =>
    exact @Slots.send sys slots reg entry here id (posted.queue entry) _ registered rfl rfl idle
  | @sendDone id entry posted flying found here =>
    exact @Slots.complete sys slots entry id posted posted.done flying found rfl rfl here
  | recv hdr => exact slots

theorem DispStep.owners {event : DispEvent} (step : DispStep sys event after)
    (slots : Slots sys) (owners : Owners sys) : Owners after := by
  cases step with
  | register svc env => exact owners.register slots svc env
  | deregister registered here dereg => exact owners.deregister slots registered here dereg
  | post shape idle registered here => exact owners.setReg _ here rfl rfl
  | sendDone flying found here => exact owners.setReg _ here rfl rfl
  | recv hdr => exact owners

/-- The slots and owners of every state a lawful run reaches. -/
theorem slots_owners_of_reachable (reachable : dispMachine.Reachable LawfulDisp sys) :
    Slots sys ∧ Owners sys := by
  refine @Transition.Machine.Reachable.invariant _ _ _ _ (fun sys => Slots sys ∧ Owners sys) ?_ ?_ _
    reachable
  · rintro _ rfl
    exact ⟨slots_create, owners_create⟩
  · rintro before event after ⟨slots, owners⟩ lawful next
    obtain ⟨known, eq, step⟩ := next_step slots owners lawful
    rw [show before.next event = some after from next, some.injEq] at eq
    subst eq
    exact ⟨step.slots slots, step.owners slots owners⟩

/-! ### Ownership of methods -/

/-- The owner of a method that a service asks for. -/
def MadDisp.ownerFor (disp : MadDisp) (svc : MadSvc) (method : Nat) : Option Nat :=
  disp.owner (mgmtVersionIndex svc.mgmtVersion) (mgmtClassIndex svc.mgmtClass) method

/-- Nobody has a method the service asks for. -/
def Unowned (disp : MadDisp) (svc : MadSvc) : Prop :=
  svc.supportUnsol = true → ∀ method < 128, svc.methodArray method = true →
    disp.ownerFor svc method = none

/-- A registration with all the memory and client IDs it can need. -/
structure Plenty (disp : MadDisp) (env : RegEnv) : Prop where
  ids : disp.freeSlot < 0xFFFFFFFF
  client : env.client = true
  versions : 256 ≤ env.versions
  classes : 256 ≤ env.classes
  methods : env.methods = true

/-- A registration as it should be: it succeeds, if there is memory, exactly when nobody has
one of its methods; it gets its methods and nothing else; a failed one leaves the tables. -/
structure RegistersRight (disp : MadDisp) (hMadSvc : Nat) (svc : MadSvc) (env : RegEnv) : Prop where
  unowned : ∀ reg, (madDispReg disp hMadSvc svc env).2 = some reg → Unowned disp svc
  succeeds : Plenty disp env → Unowned disp svc → (madDispReg disp hMadSvc svc env).2 ≠ none
  failed : (madDispReg disp hMadSvc svc env).2 = none → ∀ version cls method,
    (madDispReg disp hMadSvc svc env).1.owner version cls method = disp.owner version cls method
  records : ∀ reg, (madDispReg disp hMadSvc svc env).2 = some reg → ∀ version cls method,
    (madDispReg disp hMadSvc svc env).1.owner version cls method =
      if svc.supportUnsol = true ∧ version = mgmtVersionIndex svc.mgmtVersion ∧
          cls = mgmtClassIndex svc.mgmtClass ∧ method < maxMethod ∧ svc.methodArray method = true
      then some reg else disp.owner version cls method

/-- The registration does not ask for a method 0 that somebody has, or it also asks for another
method that somebody has. -/
def ZeroSafe (disp : MadDisp) (svc : MadSvc) : Prop :=
  svc.supportUnsol = true → svc.methodArray 0 = true → disp.ownerFor svc 0 ≠ none →
    ∃ method, 0 < method ∧ method < maxMethod ∧ svc.methodArray method = true ∧
      disp.ownerFor svc method ≠ none

/-- The deregistration of a service takes away the entries it owns and no other. -/
def DeregistersRight (sys : DispSys) (svc reg : Nat) : Prop :=
  ∃ after, sys.next (.deregister svc) = some after ∧ ∀ version cls method,
    after.disp.owner version cls method =
      if sys.disp.owner version cls method = some reg then none
      else sys.disp.owner version cls method

theorem mgmtClassIndex_lt (cls : UInt8) : mgmtClassIndex cls < 256 := by
  unfold mgmtClassIndex
  split
  · decide
  · exact UInt8.toNat_lt _

/-- What keeps a registration from succeeding: methods above 0 that somebody has. -/
theorem taken_iff (disp : MadDisp) (svc : MadSvc) : Taken disp.versionVector svc 1 ↔
    ∃ method, 0 < method ∧ method < maxMethod ∧ svc.methodArray method = true ∧
      disp.ownerFor svc method ≠ none := by
  simp only [Taken, MadDisp.ownerFor, MadDisp.owner_eq]
  exact Iff.rfl

theorem not_taken_of_done {hMadSvc reg : Nat}
    (done : (madDispReg disp hMadSvc svc env).2 = some reg) (unsol : svc.supportUnsol = true) :
    ¬ Taken disp.versionVector svc 1 := by
  obtain ⟨-, -, -, -, available⟩ := madDispReg_done _ _ _ _ done
  rw [regTables, if_pos unsol] at available
  exact not_taken_of_madDispRegUnsol _ _ _ _ available

theorem madDispReg_plenty (plenty : Plenty disp env)
    (free : svc.supportUnsol = true → ¬ Taken disp.versionVector svc 1) (hMadSvc : Nat) :
    (madDispReg disp hMadSvc svc env).2 = some disp.freeSlot :=
  madDispReg_of_not_taken _ _ _ _ free plenty.ids plenty.client
    (Nat.lt_of_lt_of_le (UInt8.toNat_lt _) plenty.versions)
    (Nat.lt_of_lt_of_le (mgmtClassIndex_lt _) plenty.classes) plenty.methods

/-- A registration that does not run into method 0 is right. -/
theorem Owners.registersRight (owners : Owners sys) (safe : ZeroSafe sys.disp svc)
    (env : RegEnv) : RegistersRight sys.disp sys.nextSvc svc env := by
  refine ⟨fun reg done unsol method below asked => ?_, fun plenty unowned => ?_, fun failed => ?_,
    fun reg done version cls method => ?_⟩
  · have free := not_taken_of_done done unsol
    rw [taken_iff] at free
    by_contra owned
    rcases Nat.eq_zero_or_pos method with rfl | positive
    · exact free (safe unsol asked owned)
    · obtain ⟨reg, owner⟩ := ne_none_iff_exists'.mp owned
      exact free ⟨method, positive, (owners.owned owner).1, asked, owned⟩
  · rw [madDispReg_plenty plenty]
    · exact some_ne_none _
    · rw [taken_iff]
      rintro unsol ⟨method, -, below, asked, owned⟩
      exact owned (unowned unsol method (Nat.lt_succ_of_lt below) asked)
  · exact (madDispReg_failed _ _ _ _ failed).2
  · obtain ⟨rfl, -, -, tables, available⟩ := madDispReg_done _ _ _ _ done
    rw [MadDisp.owner_eq, MadDisp.owner_eq, tables, ownerIn_regTables, recorded]
    by_cases unsol : svc.supportUnsol = true
    · simp [unsol, available]
    · simp [unsol]

/-- With memory that is the exact condition. -/
theorem Owners.registersRight_iff (owners : Owners sys)
    (plenty : Plenty sys.disp env) :
    RegistersRight sys.disp sys.nextSvc svc env ↔ ZeroSafe sys.disp svc := by
  refine ⟨fun right unsol asked owned => ?_, fun safe => owners.registersRight safe env⟩
  by_contra free
  rw [← taken_iff] at free
  have done := madDispReg_plenty plenty (fun _ => free) sys.nextSvc
  exact owned (right.unowned _ done unsol 0 (by decide) asked)

theorem Owners.deregistersRight (slots : Slots sys) (owners : Owners sys) {svc reg : Nat}
    (registered : sys.handles svc = some reg) : DeregistersRight sys svc reg := by
  obtain ⟨after, next, step⟩ := @next_step sys slots owners (.deregister svc) (by simp [LawfulDisp, registered])
  cases step with
  | @deregister _ other entry versions handle here dereg =>
    obtain rfl := some.inj (handle.symm.trans registered)
    refine ⟨_, next, fun version cls method => ?_⟩
    rw [MadDisp.owner_eq, MadDisp.owner_eq]
    exact deregMethods_owner dereg (fun _ _ _ owned => owners.only here owned) version cls method
  | post shape => cases shape

/-- In every state that lawful runs reach each entry of the tables belongs to one registered
service, registrations that do not run into method 0 are right, with memory only they
are, and deregistrations are right. -/
theorem ownership_of_reachable (reachable : dispMachine.Reachable LawfulDisp sys) :
    (∀ version cls method reg, sys.disp.owner version cls method = some reg →
      ∃! svc, sys.handles svc = some reg) ∧
    (∀ svc env, ZeroSafe sys.disp svc → RegistersRight sys.disp sys.nextSvc svc env) ∧
    (∀ svc env, Plenty sys.disp env →
      (RegistersRight sys.disp sys.nextSvc svc env ↔ ZeroSafe sys.disp svc)) ∧
    ∀ svc reg, sys.handles svc = some reg → DeregistersRight sys svc reg := by
  obtain ⟨slots, owners⟩ := slots_owners_of_reachable reachable
  refine ⟨fun version cls method reg owned => ?_, fun svc env safe => owners.registersRight safe env,
    fun svc env plenty => owners.registersRight_iff plenty,
    fun svc reg registered => owners.deregistersRight slots registered⟩
  obtain ⟨-, svc, entry, registered, here, -⟩ := owners.owned owned
  exact ⟨svc, registered, fun other also => slots.handles_inj registered also⟩

/-- A service for one method of the subnet administration class. -/
def sampleSvc (method : Nat) : MadSvc := ⟨ibMclassSubnAdm, 2, true, fun index => index == method⟩

def sampleEnv : RegEnv := ⟨true, 256, 256, true⟩

theorem sampleRun_reachable {method : Nat}
    (ended : Transition.Machine.run next createDispSys
      [.register (sampleSvc method) sampleEnv] = some sys) :
    dispMachine.Reachable LawfulDisp sys :=
  .run (.initial rfl) (by exact ⟨trivial, fun _ _ => trivial⟩) ended

/-- A second service for a method above 0 is turned away. -/
theorem secondService_refused : ∃ sys,
    Transition.Machine.run next createDispSys [.register (sampleSvc 5) sampleEnv] =
      some sys ∧
    sys.disp.owner 1 3 5 = some 0 ∧
    RegistersRight sys.disp sys.nextSvc (sampleSvc 5) sampleEnv ∧
    (madDispReg sys.disp sys.nextSvc (sampleSvc 5) sampleEnv).2 = none :=
  ⟨_, rfl, by decide +kernel,
    (ownership_of_reachable (sampleRun_reachable rfl)).2.1 _ _ (by
      intro _ asked
      exact absurd asked (by decide)),
    by decide +kernel⟩

/-- A second service for method 0 takes it away from the first. -/
theorem methodZero_stolen : ∃ sys,
    Transition.Machine.run next createDispSys [.register (sampleSvc 0) sampleEnv] =
      some sys ∧
    dispMachine.Reachable LawfulDisp sys ∧
    sys.handles 0 = some 0 ∧ sys.disp.owner 1 3 0 = some 0 ∧
    (madDispReg sys.disp sys.nextSvc (sampleSvc 0) sampleEnv).2 = some 1 ∧
    (madDispReg sys.disp sys.nextSvc (sampleSvc 0) sampleEnv).1.owner 1 3 0 = some 1 :=
  ⟨_, rfl, sampleRun_reachable rfl, by decide +kernel, by decide +kernel, by decide +kernel,
    by decide +kernel⟩

end WinOFED.Mad.Dispatch
