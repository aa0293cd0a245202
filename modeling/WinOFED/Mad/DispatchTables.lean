import WinOFED.Mad.Dispatcher

/-! Who owns the methods of a MAD dispatcher.

The tables are nested vectors that grow as services register. `ownerIn` looks through
the nesting, so that each function on the tables is described by what it does to
the owner of a version, class and method. -/
namespace WinOFED.Mad.Dispatch
open Option
open List hiding getElem?_eq_some_iff

/-! ### Growing vectors -/

section SetMinSize
variable {α : Type} {vector : List α} {fresh : α} {minSize granted : Nat}

theorem length_setMinSize (sized : (setMinSize vector fresh minSize granted).2 = true) :
    minSize ≤ (setMinSize vector fresh minSize granted).1.length := by
  simp only [setMinSize, decide_eq_true_eq, length_append, length_replicate] at sized ⊢
  exact sized

theorem setMinSize_granted (enough : minSize ≤ granted) :
    (setMinSize vector fresh minSize granted).2 = true := by
  simp only [setMinSize, decide_eq_true_eq]
  omega

/-- Old entries stay and new ones are fresh. -/
theorem getElem?_setMinSize (index : Nat) :
    (setMinSize vector fresh minSize granted).1[index]? = vector[index]? ∨
      vector[index]? = none ∧ (setMinSize vector fresh minSize granted).1[index]? = some fresh := by
  simp only [setMinSize]
  by_cases old : index < vector.length
  · exact .inl (getElem?_append_left old)
  · have beyond : vector[index]? = none := getElem?_eq_none (Nat.le_of_not_lt old)
    rw [getElem?_append_right (Nat.le_of_not_lt old), beyond, getElem?_replicate]
    split
    · exact .inr ⟨rfl, rfl⟩
    · exact .inl rfl

theorem getElem?_setMinSize_of_some {index : Nat} {entry : α} (found : vector[index]? = some entry) :
    (setMinSize vector fresh minSize granted).1[index]? = some entry := by
  rw [← found]
  exact getElem?_append_left (getElem?_eq_some_iff.mp found).1

/-- Nothing is added beyond the size asked for. -/
theorem getElem?_setMinSize_of_le {index : Nat} (beyond : minSize ≤ index) :
    (setMinSize vector fresh minSize granted).1[index]? = vector[index]? := by
  simp only [setMinSize]
  by_cases old : index < vector.length
  · exact getElem?_append_left old
  · rw [getElem?_eq_none, getElem?_eq_none]
    · omega
    · simp only [length_append, length_replicate]
      omega

/-- A lookup that does not tell a fresh entry from none does not see the growth. -/
theorem setMinSize_bind {β : Type} (look : α → Option β) (unseen : look fresh = none) (index : Nat) :
    (setMinSize vector fresh minSize granted).1[index]?.bind look = vector[index]?.bind look := by
  obtain same | ⟨missing, added⟩ := @getElem?_setMinSize α vector fresh minSize granted index
  · rw [same]
  · rw [missing, added]
    exact unseen

end SetMinSize

/-! ### The owner of a method -/

/-- The owner of a method in a method vector. -/
def ownerOf (methods : MethodVector) (method : Nat) : Option Nat := methods[method]?.join

/-- The owner of a version, class and method. -/
def ownerIn (versions : VersionVector) (version cls method : Nat) : Option Nat :=
  (methodVector versions version cls).bind (ownerOf · method)

theorem MadDisp.owner_eq (disp : MadDisp) (version cls method : Nat) :
    disp.owner version cls method = ownerIn disp.versionVector version cls method := by
  simp only [MadDisp.owner, ownerIn, ownerOf]
  cases methodVector disp.versionVector version cls <;> rfl

theorem ownerOf_setMinSize (methods : MethodVector) (minSize granted method : Nat) :
    ownerOf (setMinSize methods none minSize granted).1 method = ownerOf methods method :=
  @setMinSize_bind _ methods none minSize granted _ id rfl method

/-! ### The two loops of a registration -/

section Loops
variable {methodArray : Nat → Bool} {granted : Bool}

/-- The method vector the first loop makes room in. -/
def roomFor (granted : Bool) (index : Nat) (methods : MethodVector) : MethodVector × Bool :=
  setMinSize methods none (index + 1) (if granted then index + 1 else 0)

section
variable (index : Nat) (methods : MethodVector)
include index methods

theorem checkMethods_succ : checkMethods methodArray granted (index + 1) methods =
      if methodArray (index + 1) then
        if !(roomFor granted (index + 1) methods).2 then
          ((roomFor granted (index + 1) methods).1, false)
        else if (ownerOf (roomFor granted (index + 1) methods).1 (index + 1)).isSome then
          ((roomFor granted (index + 1) methods).1, false)
        else checkMethods methodArray granted index (roomFor granted (index + 1) methods).1
      else checkMethods methodArray granted index methods := rfl

theorem ownerOf_roomFor (method : Nat) :
    ownerOf (roomFor granted index methods).1 method = ownerOf methods method :=
  ownerOf_setMinSize ..

/-- The first loop changes no owner. -/
theorem ownerOf_checkMethods (method : Nat) :
    ownerOf (checkMethods methodArray granted index methods).1 method = ownerOf methods method := by
  induction index generalizing methods with
  | zero => rfl
  | succ index ih =>
    rw [checkMethods_succ]
    split_ifs
    · exact ownerOf_roomFor ..
    · exact ownerOf_roomFor ..
    · rw [ih, ownerOf_roomFor]
    · exact ih methods

end

variable {methods : MethodVector}

/-- The first loop passes only if nobody has the methods it looks at, all but method 0. -/
theorem unowned_of_checkMethods {index : Nat}
    (available : (checkMethods methodArray granted index methods).2 = true) {method : Nat}
    (positive : 0 < method) (inside : method ≤ index) (asked : methodArray method = true) :
    ownerOf methods method = none := by
  induction index generalizing methods with
  | zero => omega
  | succ index ih =>
    rw [checkMethods_succ] at available
    split_ifs at available with wanted _ unowned
    · rw [← @ownerOf_roomFor granted (index + 1) methods]
      by_cases last : method = index + 1
      · rw [last]
        exact not_isSome_iff_eq_none.mp unowned
      · exact ih available (by omega)
    · have apart : method ≠ index + 1 := by
        rintro rfl
        exact wanted asked
      exact ih available (by omega)

/-- With memory the first loop passes if nobody has the methods it looks at. -/
theorem checkMethods_of_unowned {index : Nat}
    (unowned : ∀ method, 0 < method → method ≤ index → methodArray method = true →
      ownerOf methods method = none) : (checkMethods methodArray true index methods).2 = true := by
  induction index generalizing methods with
  | zero => rfl
  | succ index ih =>
    have sized : (roomFor true (index + 1) methods).2 = true := setMinSize_granted (Nat.le_refl _)
    rw [checkMethods_succ]
    split
    next asked =>
      have free : ownerOf (roomFor true (index + 1) methods).1 (index + 1) = none := by
        rw [ownerOf_roomFor]
        exact unowned _ (Nat.succ_pos _) (Nat.le_refl _) asked
      simp only [sized, Bool.not_true, Bool.false_eq_true, if_false, free, isSome_none]
      refine ih fun method positive inside asked => ?_
      rw [ownerOf_roomFor]
      exact unowned method positive (Nat.le_succ_of_le inside) asked
    next => exact ih fun method positive inside => unowned method positive (Nat.le_succ_of_le inside)

theorem ownerOf_ptrVectorSet (methods : MethodVector) (index reg method : Nat) :
    ownerOf (ptrVectorSet methods index reg) method =
      if method = index then some reg else ownerOf methods method := by
  have sized : index < (setMinSize methods none (index + 1) (index + 1)).1.length :=
    length_setMinSize (setMinSize_granted (Nat.le_refl _))
  by_cases same : method = index
  · subst same
    simp [ownerOf, ptrVectorSet, sized]
  · rw [if_neg same, ← ownerOf_setMinSize methods (index + 1) (index + 1)]
    simp [ownerOf, ptrVectorSet, getElem?_set_ne (Ne.symm same)]

/-- The second loop records the methods asked for below `MAX_METHOD`. -/
theorem ownerOf_recordMethods (reg : Nat) (methods : MethodVector) (method : Nat) :
    ownerOf (recordMethods methodArray reg methods) method =
      if method < maxMethod ∧ methodArray method = true then some reg
      else ownerOf methods method := by
  rw [recordMethods]
  -- The loop has gone through the methods below `count`.
  induction maxMethod with
  | zero => simp
  | succ count ih =>
    rw [range_succ, foldl_append, foldl_cons, foldl_nil]
    by_cases last : method = count
    · subst last
      cases asked : methodArray method <;> simp [ownerOf_ptrVectorSet, ih, asked]
    · have below : method < count + 1 ↔ method < count := by omega
      cases asked : methodArray count <;> simp [ownerOf_ptrVectorSet, ih, last, below]

end Loops

/-! ### Nested vectors -/

variable {cls version : Nat} {methods : MethodVector} {versions after : VersionVector} {entry : MadReg}

theorem methodVector_setMethodVector {old : MethodVector}
    (here : methodVector versions version cls = some old) (otherVersion otherCls : Nat) :
    methodVector (setMethodVector versions version cls methods) otherVersion otherCls =
      if otherVersion = version ∧ otherCls = cls then some methods
      else methodVector versions otherVersion otherCls := by
  obtain ⟨classes, found, entry⟩ := bind_eq_some_iff.mp here
  have below : cls < classes.length := (getElem?_eq_some_iff.mp entry).1
  simp only [methodVector, setMethodVector, getElem?_modify]
  by_cases sameVersion : otherVersion = version
  · subst sameVersion
    by_cases sameCls : otherCls = cls
    · subst sameCls
      simp [found, below]
    · simp [found, sameCls, getElem?_set_ne (Ne.symm sameCls)]
  · simp [sameVersion, Ne.symm sameVersion]

theorem ownerIn_setMethodVector {old : MethodVector}
    (here : methodVector versions version cls = some old) (otherVersion otherCls method : Nat) :
    ownerIn (setMethodVector versions version cls methods) otherVersion otherCls method =
      if otherVersion = version ∧ otherCls = cls then ownerOf methods method
      else ownerIn versions otherVersion otherCls method := by
  rw [ownerIn, methodVector_setMethodVector here]
  split <;> rfl

section PrepareClass
variable (versions : VersionVector) (version cls : Nat) (env : RegEnv) (otherVersion : Nat)

/-- The versions `prepareClass` makes room for. -/
def roomForVersion : VersionVector × Bool :=
  setMinSize versions initVersionEntry (version + 1) env.versions

/-- The classes of the version it makes room for. -/
def roomForClass : List MethodVector × Bool :=
  setMinSize ((roomForVersion versions version env).1.getD version []) [] (cls + 1) env.classes

theorem prepareClass_eq : prepareClass versions version cls env =
    if !(roomForVersion versions version env).2 then ((roomForVersion versions version env).1, false)
    else ((roomForVersion versions version env).1.set version
      (roomForClass versions version cls env).1, (roomForClass versions version cls env).2) := rfl

theorem ownerIn_eq_bind (otherCls method : Nat) :
    ownerIn versions otherVersion otherCls method = versions[otherVersion]?.bind fun classes =>
      classes[otherCls]?.bind (ownerOf · method) := by
  rw [ownerIn, methodVector, bind_assoc]

theorem ownerIn_roomForVersion (otherCls method : Nat) :
    ownerIn (roomForVersion versions version env).1 otherVersion otherCls method =
      ownerIn versions otherVersion otherCls method := by
  rw [ownerIn_eq_bind, ownerIn_eq_bind, roomForVersion, setMinSize_bind]
  simp only [initVersionEntry, getElem?_replicate]
  split <;> rfl

/-- Entries made for a version and class belong to nobody. -/
theorem ownerIn_prepareClass (otherCls method : Nat) :
    ownerIn (prepareClass versions version cls env).1 otherVersion otherCls method =
      ownerIn versions otherVersion otherCls method := by
  rw [prepareClass_eq, ← ownerIn_roomForVersion versions version env]
  split
  · rfl
  next sized =>
    have grown : (roomForVersion versions version env).2 = true := by simpa using sized
    have below : version < (roomForVersion versions version env).1.length := length_setMinSize grown
    rw [ownerIn_eq_bind, ownerIn_eq_bind]
    by_cases same : otherVersion = version
    · subst same
      rw [getElem?_set_self below, getElem?_eq_getElem below]
      simp only [bind_some]
      rw [roomForClass, setMinSize_bind _ rfl, getD_eq_getElem?_getD,
        getElem?_eq_getElem below, getD_some]
    · rw [getElem?_set_ne (Ne.symm same)]

theorem methodVector_prepareClass (prepared : (prepareClass versions version cls env).2 = true) :
    ∃ methods, methodVector (prepareClass versions version cls env).1 version cls = some methods := by
  rw [prepareClass_eq] at prepared ⊢
  split at prepared
  · cases prepared
  next sized =>
    have grown : (roomForVersion versions version env).2 = true := by simpa using sized
    have below : version < (roomForVersion versions version env).1.length := length_setMinSize grown
    have inside : cls < (roomForClass versions version cls env).1.length := length_setMinSize prepared
    rw [if_neg sized]
    refine ⟨(roomForClass versions version cls env).1[cls], ?_⟩
    rw [methodVector, getElem?_set_self below, bind_some, getElem?_eq_getElem inside]

/-- Entries there are stay. -/
theorem methodVector_prepareClass_of_some {otherVersion otherCls : Nat}
    (found : methodVector versions otherVersion otherCls = some methods) :
    methodVector (prepareClass versions version cls env).1 otherVersion otherCls = some methods := by
  obtain ⟨classes, there, entry⟩ := bind_eq_some_iff.mp found
  have old : (roomForVersion versions version env).1[otherVersion]? = some classes :=
    getElem?_setMinSize_of_some there
  rw [prepareClass_eq]
  split
  · exact bind_eq_some_iff.mpr ⟨classes, old, entry⟩
  · by_cases same : otherVersion = version
    · subst same
      have below : otherVersion < (roomForVersion versions otherVersion env).1.length :=
        (getElem?_eq_some_iff.mp old).1
      refine bind_eq_some_iff.mpr ⟨_, getElem?_set_self below, ?_⟩
      rw [roomForClass, getD_eq_getElem?_getD, old, getD_some]
      exact getElem?_setMinSize_of_some entry
    · exact bind_eq_some_iff.mpr ⟨classes, (getElem?_set_ne (Ne.symm same)).trans old, entry⟩

theorem prepareClass_granted (more : version < env.versions) (wider : cls < env.classes) :
    (prepareClass versions version cls env).2 = true := by
  rw [prepareClass_eq]
  have sized : (roomForVersion versions version env).2 = true := setMinSize_granted more
  have grown : (roomForClass versions version cls env).2 = true := setMinSize_granted wider
  rw [if_neg (by simp [sized]), grown]

end PrepareClass

/-! ### Registration and deregistration -/

/-- Methods a registration asks for that somebody has; method 0 counts only if `first` is 0. -/
def Taken (versions : VersionVector) (svc : MadSvc) (first : Nat) : Prop :=
  ∃ method, first ≤ method ∧ method < maxMethod ∧ svc.methodArray method = true ∧
    ownerIn versions (mgmtVersionIndex svc.mgmtVersion) (mgmtClassIndex svc.mgmtClass) method ≠ none

/-- The owners once a registration has the methods it asked for. -/
def recorded (versions : VersionVector) (reg : Nat) (svc : MadSvc) (version cls method : Nat) :
    Option Nat :=
  if version = mgmtVersionIndex svc.mgmtVersion ∧ cls = mgmtClassIndex svc.mgmtClass ∧
      method < maxMethod ∧ svc.methodArray method = true then some reg
  else ownerIn versions version cls method

section RegUnsol
variable (versions : VersionVector) (reg : Nat) (svc : MadSvc) (env : RegEnv)

/-- The tables with entries for the version and class of a service. -/
def prepared : VersionVector × Bool :=
  prepareClass versions (mgmtVersionIndex svc.mgmtVersion) (mgmtClassIndex svc.mgmtClass) env

/-- The outcome of the first loop on the methods of the service. -/
def checked (methods : MethodVector) : MethodVector × Bool :=
  checkMethods svc.methodArray env.methods (maxMethod - 1) methods

theorem ownerIn_prepared (version cls method : Nat) :
    ownerIn (prepared versions svc env).1 version cls method = ownerIn versions version cls method :=
  ownerIn_prepareClass ..

/-- Without room for the version and class nothing is done; with room the first loop decides. -/
theorem madDispRegUnsol_cases :
    (prepared versions svc env).2 = false ∧
        madDispRegUnsol versions reg svc env = ((prepared versions svc env).1, false) ∨
      ∃ methods, methodVector (prepared versions svc env).1 (mgmtVersionIndex svc.mgmtVersion)
          (mgmtClassIndex svc.mgmtClass) = some methods ∧
        (∀ method, ownerOf methods method = ownerIn versions (mgmtVersionIndex svc.mgmtVersion)
          (mgmtClassIndex svc.mgmtClass) method) ∧
        madDispRegUnsol versions reg svc env =
          (setMethodVector (prepared versions svc env).1 (mgmtVersionIndex svc.mgmtVersion)
            (mgmtClassIndex svc.mgmtClass)
            (if (checked svc env methods).2 then
              recordMethods svc.methodArray reg (checked svc env methods).1
            else (checked svc env methods).1),
            (checked svc env methods).2) := by
  cases ready : (prepared versions svc env).2 with
  | false =>
    simp only [prepared] at ready
    simp [madDispRegUnsol, prepared, ready]
  | true =>
    obtain ⟨methods, found⟩ := methodVector_prepareClass _ _ _ _ ready
    refine .inr ⟨methods, found, fun method => ?_, ?_⟩
    · rw [← ownerIn_prepareClass versions _ _ env, ownerIn, found]
      rfl
    · simp only [prepared] at ready
      simp only [madDispRegUnsol, prepared, ready, found, Bool.not_true, Bool.false_eq_true,
        if_false, getD_some, checked]
      split <;> simp_all

variable {methods : MethodVector}

/-- `__mad_disp_reg_unsol` takes no method vector away. -/
theorem methodVector_madDispRegUnsol (found : methodVector versions version cls = some methods) :
    ∃ after, methodVector (madDispRegUnsol versions reg svc env).1 version cls = some after := by
  have kept : methodVector (prepared versions svc env).1 version cls = some methods :=
    methodVector_prepareClass_of_some _ _ _ _ found
  obtain ⟨-, made⟩ | ⟨own, there, -, made⟩ := madDispRegUnsol_cases versions reg svc env
  · rw [made]
    exact ⟨methods, kept⟩
  · rw [made]
    dsimp only
    rw [methodVector_setMethodVector there]
    split
    · exact ⟨_, rfl⟩
    · exact ⟨methods, kept⟩

/-- A registration that succeeds has a method vector. -/
theorem methodVector_of_madDispRegUnsol (ok : (madDispRegUnsol versions reg svc env).2 = true) :
    ∃ after, methodVector (madDispRegUnsol versions reg svc env).1
      (mgmtVersionIndex svc.mgmtVersion) (mgmtClassIndex svc.mgmtClass) = some after := by
  obtain ⟨-, made⟩ | ⟨own, there, -, made⟩ := madDispRegUnsol_cases versions reg svc env
  · rw [made] at ok
    cases ok
  · rw [made]
    dsimp only
    rw [methodVector_setMethodVector there, if_pos ⟨rfl, rfl⟩]
    exact ⟨_, rfl⟩

/-- What `__mad_disp_reg_unsol` does to the owners. -/
theorem ownerIn_madDispRegUnsol (version cls method : Nat) :
    ownerIn (madDispRegUnsol versions reg svc env).1 version cls method =
      if (madDispRegUnsol versions reg svc env).2 then recorded versions reg svc version cls method
      else ownerIn versions version cls method := by
  obtain ⟨-, made⟩ | ⟨methods, found, owners, made⟩ := madDispRegUnsol_cases versions reg svc env
  · rw [made]
    exact ownerIn_prepared ..
  · rw [made]
    dsimp only
    rw [ownerIn_setMethodVector found]
    have kept (method : Nat) : ownerOf (checked svc env methods).1 method = ownerOf methods method :=
      ownerOf_checkMethods ..
    by_cases here : version = mgmtVersionIndex svc.mgmtVersion ∧ cls = mgmtClassIndex svc.mgmtClass
    · obtain ⟨rfl, rfl⟩ := here
      cases (checked svc env methods).2 with
      | false => simp [kept, owners]
      | true => simp [ownerOf_recordMethods, recorded, kept, owners]
    · have elsewhere : recorded versions reg svc version cls method =
          ownerIn versions version cls method :=
        if_neg fun all => here ⟨all.1, all.2.1⟩
      simp only [here, if_false, elsewhere, ite_self]
      exact ownerIn_prepared ..

/-- A registration that succeeds asked for no method that somebody has, method 0 apart. -/
theorem not_taken_of_madDispRegUnsol (ok : (madDispRegUnsol versions reg svc env).2 = true) :
    ¬ Taken versions svc 1 := by
  obtain ⟨-, made⟩ | ⟨methods, found, owners, made⟩ := madDispRegUnsol_cases versions reg svc env
  · rw [made] at ok
    cases ok
  · rw [made] at ok
    rintro ⟨method, positive, below, asked, taken⟩
    rw [← owners] at taken
    exact taken (unowned_of_checkMethods ok positive (by unfold maxMethod at *; omega) asked)

/-- With memory it succeeds if it asked for no such method. -/
theorem madDispRegUnsol_of_not_taken (free : ¬ Taken versions svc 1)
    (more : mgmtVersionIndex svc.mgmtVersion < env.versions)
    (wider : mgmtClassIndex svc.mgmtClass < env.classes) (longer : env.methods = true) :
    (madDispRegUnsol versions reg svc env).2 = true := by
  have ready : (prepared versions svc env).2 = true := prepareClass_granted _ _ _ _ more wider
  obtain ⟨refused, -⟩ | ⟨methods, found, owners, made⟩ := madDispRegUnsol_cases versions reg svc env
  · exact absurd ready (Bool.eq_false_iff.mp refused)
  rw [made]
  change (checkMethods svc.methodArray env.methods (maxMethod - 1) methods).2 = true
  rw [longer]
  refine checkMethods_of_unowned fun method positive inside asked => ?_
  by_contra taken
  refine free ⟨method, positive, by unfold maxMethod at *; omega, asked, ?_⟩
  rwa [← owners]

end RegUnsol

section Reg
variable (disp : MadDisp) (hMadSvc : Nat) (svc : MadSvc) (env : RegEnv)

theorem freeSlot_le : disp.freeSlot ≤ disp.clientVector.length := findIdx_le_length

theorem freeSlot_refCnt (here : disp.clientVector[disp.freeSlot]? = some entry) : entry.refCnt = 0 := by
  obtain ⟨below, rfl⟩ := getElem?_eq_some_iff.mp here
  have free := @findIdx_getElem _ (fun entry : MadReg => entry.refCnt == 0) _ below
  exact eq_of_beq free

/-- The dispatch tables after the registration has tried to get its methods. -/
def regTables : VersionVector × Bool :=
  if svc.supportUnsol then madDispRegUnsol disp.versionVector disp.freeSlot svc env
  else (disp.versionVector, true)

theorem ownerIn_regTables (version cls method : Nat) :
    ownerIn (regTables disp svc env).1 version cls method =
      if svc.supportUnsol = true ∧ (regTables disp svc env).2 = true then
        recorded disp.versionVector disp.freeSlot svc version cls method
      else ownerIn disp.versionVector version cls method := by
  unfold regTables
  by_cases unsol : svc.supportUnsol = true
  · rw [if_pos unsol, ownerIn_madDispRegUnsol]
    simp [unsol]
  · simp [unsol]

/-- The entry of a registration that is not yet in use. -/
def regEntry : MadReg :=
  { disp.clientVector.getD disp.freeSlot initMadReg with
    clientId := disp.freeSlot.toUInt32, supportUnsol := svc.supportUnsol
    mgmtClass := svc.mgmtClass, mgmtVersion := svc.mgmtVersion }

/-- The client vector with room for the registration. -/
def roomForClient : List MadReg × Bool :=
  setMinSize disp.clientVector initMadReg (disp.freeSlot + 1) (if env.client then 1 else 0)

variable {reg : Nat}

theorem getElem?_roomForClient (other : reg ≠ disp.freeSlot) :
    (roomForClient disp env).1[reg]? = disp.clientVector[reg]? := by
  rcases Nat.lt_or_gt_of_ne other with below | above
  · have inside : reg < disp.clientVector.length := Nat.lt_of_lt_of_le below (freeSlot_le disp)
    exact getElem?_append_left inside
  · exact getElem?_setMinSize_of_le above

theorem getD_roomForClient :
    (roomForClient disp env).1.getD disp.freeSlot initMadReg =
      disp.clientVector.getD disp.freeSlot initMadReg := by
  rw [getD_eq_getElem?_getD, getD_eq_getElem?_getD, roomForClient]
  obtain same | ⟨missing, added⟩ := @getElem?_setMinSize _ disp.clientVector initMadReg
    (disp.freeSlot + 1) (if env.client then 1 else 0) disp.freeSlot
  · rw [same]
  · rw [missing, added]
    rfl

theorem madDispReg_eq : madDispReg disp hMadSvc svc env =
    if 0xFFFFFFFF ≤ disp.freeSlot then (disp, none)
    else if !(roomForClient disp env).2 then
      ({ disp with clientVector := (roomForClient disp env).1 }, none)
    else if !(regTables disp svc env).2 then
      (⟨(roomForClient disp env).1.set disp.freeSlot (regEntry disp svc), (regTables disp svc env).1⟩, none)
    else
      (⟨(roomForClient disp env).1.set disp.freeSlot { regEntry disp svc with hMadSvc, refCnt := 1 },
        (regTables disp svc env).1⟩, some disp.freeSlot) := by
  rw [regEntry, ← getD_roomForClient disp env]
  rfl

/-- The other registrations stay as they are. -/
theorem madDispReg_other (other : reg ≠ disp.freeSlot) :
    (madDispReg disp hMadSvc svc env).1.clientVector[reg]? = disp.clientVector[reg]? := by
  have kept := getElem?_roomForClient disp env other
  have apart := Ne.symm other
  rw [madDispReg_eq]
  split_ifs
  · rfl
  · exact kept
  · exact (getElem?_set_ne apart).trans kept
  · exact (getElem?_set_ne apart).trans kept

/-- A failed registration leaves its slot unused and the tables' owners as they were. -/
theorem madDispReg_failed (failed : (madDispReg disp hMadSvc svc env).2 = none) :
    (∀ entry, (madDispReg disp hMadSvc svc env).1.clientVector[disp.freeSlot]? = some entry →
      entry.refCnt = 0) ∧
    ∀ version cls method, (madDispReg disp hMadSvc svc env).1.owner version cls method =
      disp.owner version cls method := by
  have unused : (disp.clientVector.getD disp.freeSlot initMadReg).refCnt = 0 := by
    rw [getD_eq_getElem?_getD]
    cases here : disp.clientVector[disp.freeSlot]? with
    | none => rfl
    | some entry => exact freeSlot_refCnt disp here
  have known {clients : List MadReg} {entry : MadReg} (here : clients[disp.freeSlot]? = some entry)
      (same : clients.getD disp.freeSlot initMadReg =
        disp.clientVector.getD disp.freeSlot initMadReg) : entry.refCnt = 0 := by
    rw [getD_eq_getElem?_getD, here, getD_some] at same
    exact same ▸ unused
  rw [madDispReg_eq] at failed ⊢
  split_ifs at failed ⊢ with exceeds unsized refused
  · exact ⟨fun entry here => known here rfl, fun _ _ _ => rfl⟩
  · exact ⟨fun entry here => known here (getD_roomForClient disp env), fun _ _ _ => rfl⟩
  · refine ⟨fun entry here => ?_, fun version cls method => ?_⟩
    · obtain ⟨_, rfl⟩ := getElem?_eq_some_iff.mp here
      rw [getElem_set_self]
      exact unused
    · rw [Bool.not_eq_true'] at refused
      rw [MadDisp.owner_eq, MadDisp.owner_eq]
      simp [ownerIn_regTables, refused]

/-- A registration that succeeds has its slot and its methods. -/
theorem madDispReg_done (done : (madDispReg disp hMadSvc svc env).2 = some reg) :
    reg = disp.freeSlot ∧ disp.freeSlot < 0xFFFFFFFF ∧
    (madDispReg disp hMadSvc svc env).1.clientVector[disp.freeSlot]? =
      some ⟨hMadSvc, disp.freeSlot.toUInt32, 1, svc.supportUnsol, svc.mgmtClass, svc.mgmtVersion⟩ ∧
    (madDispReg disp hMadSvc svc env).1.versionVector = (regTables disp svc env).1 ∧
    (regTables disp svc env).2 = true := by
  rw [madDispReg_eq] at done ⊢
  split_ifs at done ⊢ with exceeds sized available
  rw [Bool.not_eq_true', Bool.not_eq_false] at sized available
  refine ⟨(some.inj done).symm, Nat.lt_of_not_le exceeds, ?_, rfl, available⟩
  have inside : disp.freeSlot < (roomForClient disp env).1.length := length_setMinSize sized
  rw [getElem?_set_self inside]
  rfl

theorem length_madDispReg :
    disp.clientVector.length ≤ (madDispReg disp hMadSvc svc env).1.clientVector.length := by
  rw [madDispReg_eq]
  split_ifs <;> simp [roomForClient, setMinSize]

/-- The client ID of every entry is its slot, also after a registration. -/
theorem madDispReg_clientId
    (ids : ∀ {slot : Nat} {entry : MadReg}, disp.clientVector[slot]? = some entry →
      entry.clientId.toNat = slot)
    {changed : MadReg}
    (here : (madDispReg disp hMadSvc svc env).1.clientVector[reg]? = some changed) :
    changed.clientId.toNat = reg := by
  by_cases slot : reg = disp.freeSlot
  · subst slot
    rw [madDispReg_eq] at here
    split_ifs at here with exceeds unsized
    · exact ids here
    · obtain ⟨inside, -⟩ := getElem?_eq_some_iff.mp here
      simp only [roomForClient, setMinSize, Bool.not_eq_true', decide_eq_false_iff_not,
        length_append, length_replicate] at unsized inside
      omega
    all_goals
      obtain ⟨_, rfl⟩ := getElem?_eq_some_iff.mp here
      rw [getElem_set_self]
      exact Nat.mod_eq_of_lt (Nat.lt_of_lt_of_le (Nat.lt_of_not_le exceeds) (by decide))
  · exact ids ((madDispReg_other disp hMadSvc svc env slot).symm.trans here)

theorem methodVector_madDispReg
    (found : methodVector disp.versionVector version cls = some methods) : ∃ after, methodVector (madDispReg disp hMadSvc svc env).1.versionVector version cls =
      some after := by
  have tables : ∃ after, methodVector (regTables disp svc env).1 version cls = some after := by
    rw [regTables]
    split
    · exact methodVector_madDispRegUnsol _ _ _ _ found
    · exact ⟨methods, found⟩
  rw [madDispReg_eq]
  split_ifs
  · exact ⟨methods, found⟩
  · exact ⟨methods, found⟩
  · exact tables
  · exact tables

/-- With memory a registration succeeds if its methods are free, method 0 apart. -/
theorem madDispReg_of_not_taken (free : svc.supportUnsol = true → ¬ Taken disp.versionVector svc 1)
    (ids : disp.freeSlot < 0xFFFFFFFF) (room : env.client = true)
    (more : mgmtVersionIndex svc.mgmtVersion < env.versions)
    (wider : mgmtClassIndex svc.mgmtClass < env.classes) (longer : env.methods = true) :
    (madDispReg disp hMadSvc svc env).2 = some disp.freeSlot := by
  have sized : (roomForClient disp env).2 = true := by
    have slot := freeSlot_le disp
    simp only [roomForClient, setMinSize, room, if_true, decide_eq_true_eq]
    omega
  have available : (regTables disp svc env).2 = true := by
    rw [regTables]
    split
    next unsol => exact madDispRegUnsol_of_not_taken _ _ _ _ (free unsol) more wider longer
    next => rfl
  rw [madDispReg_eq, if_neg (Nat.not_le.mpr ids)]
  simp [sized, available]

end Reg

theorem methodVector_deregMethods {reg : Nat}
    (dereg : deregMethods versions reg entry = some after)
    (found : methodVector versions version cls = some methods) :
    ∃ left, methodVector after version cls = some left := by
  rw [deregMethods] at dereg
  split at dereg
  · obtain ⟨own, there, ended⟩ := bind_eq_some_iff.mp dereg
    cases ended
    rw [methodVector_setMethodVector there]
    split
    · exact ⟨_, rfl⟩
    · exact ⟨methods, found⟩
  · cases dereg
    exact ⟨methods, found⟩

/-- Deregistration takes the registration's methods of its version and class away. -/
theorem deregMethods_owner {reg : Nat}
    (dereg : deregMethods versions reg entry = some after)
    (only : ∀ version cls method, ownerIn versions version cls method = some reg →
      entry.supportUnsol = true ∧ version = mgmtVersionIndex entry.mgmtVersion ∧
        cls = mgmtClassIndex entry.mgmtClass) (version cls method : Nat) :
    ownerIn after version cls method =
      if ownerIn versions version cls method = some reg then none
      else ownerIn versions version cls method := by
  rw [deregMethods] at dereg
  split at dereg
  next unsol =>
    obtain ⟨methods, found, ended⟩ := bind_eq_some_iff.mp dereg
    cases ended
    rw [ownerIn_setMethodVector found]
    by_cases here : version = mgmtVersionIndex entry.mgmtVersion ∧ cls = mgmtClassIndex entry.mgmtClass
    · rw [if_pos here]
      obtain ⟨rfl, rfl⟩ := here
      have owner : ownerIn versions (mgmtVersionIndex entry.mgmtVersion)
          (mgmtClassIndex entry.mgmtClass) method = ownerOf methods method := by
        rw [ownerIn, found]
        rfl
      rw [owner, ownerOf, ownerOf, getElem?_map]
      cases methods[method]? with
      | none => simp
      | some slot => simp
    · rw [if_neg here, if_neg]
      exact fun owned => here (only version cls method owned).2
  next solicited =>
    cases dereg
    rw [if_neg]
    exact fun owned => solicited (only version cls method owned).1

end WinOFED.Mad.Dispatch
