import WinOFED.Mad.Element
import WinOFED.Transition.Machine

/-! The MAD dispatcher of a queue pair.

Services register with the dispatcher, post sends through it and get the MADs it
receives: responses by the client ID in their transaction ID, other MADs by
version, class and method. A registration is an entry of `client_vector`, and the
pointers to registrations in the dispatch tables are modelled by its index. -/
namespace WinOFED.Mad.Dispatch

/-! ### Transaction IDs

A transaction ID is in network order. Its upper half is the access layer's. -/

/-- `al_get_al_tid`. -/
def alGetAlTid (tid : UInt64) : UInt32 := (tid.toNat / 2 ^ 32).toUInt32

/-- `al_set_al_tid`. -/
def alSetAlTid (tid : UInt64) (tid32 : UInt32) : UInt64 :=
  (tid32.toNat * 2 ^ 32 + tid.toNat % 2 ^ 32).toUInt64

def ibMclassCommMgmt : UInt8 := 0x07
def ibMclassSubnLid : UInt8 := 0x01
def ibMclassSubnDir : UInt8 := 0x81

/-- `__use_tid_routing`. -/
def useTidRouting (hdr : MadHdr) (areWeSender : Bool) : Bool :=
  if hdr.mgmtClass = ibMclassCommMgmt then false
  else if areWeSender then !hdr.isResponse
  else hdr.isResponse

/-- `__mgmt_version_index`. -/
def mgmtVersionIndex (mgmtVersion : UInt8) : Nat := (mgmtVersion - 1).toNat

/-- `__mgmt_class_index`. -/
def mgmtClassIndex (mgmtClass : UInt8) : Nat :=
  if mgmtClass = ibMclassSubnDir then ibMclassSubnLid.toNat else mgmtClass.toNat

/-! ### Registrations -/

/-- `al_mad_disp_reg_t`; `hMadSvc` names the MAD service. -/
structure MadReg where
  hMadSvc : Nat
  clientId : UInt32
  refCnt : Int
  supportUnsol : Bool
  mgmtClass : UInt8
  mgmtVersion : UInt8
deriving DecidableEq, Repr

/-- `__init_mad_reg` on zeroed memory. -/
def initMadReg : MadReg := ⟨0, 0, 0, false, 0, 0⟩

/-- The registrations for the methods of one class. -/
abbrev MethodVector := List (Option Nat)

/-- The method vectors by version and class. -/
abbrev VersionVector := List (List MethodVector)

/-- The vectors of `al_mad_disp_t`. -/
structure MadDisp where
  clientVector : List MadReg
  versionVector : VersionVector
deriving DecidableEq, Repr

/-- `MAD_VECTOR_SIZE`. -/
def madVectorSize : Nat := 8

/-- `MAX_METHOD`. -/
def maxMethod : Nat := 127

/-- `__init_version_entry`. -/
def initVersionEntry : List MethodVector := List.replicate madVectorSize []

/-- The vectors of `create_mad_disp`. -/
def createMadDisp : MadDisp := ⟨[initMadReg], [initVersionEntry]⟩

/-- What a registration asks for, `ib_mad_svc_t`. -/
structure MadSvc where
  mgmtClass : UInt8
  mgmtVersion : UInt8
  supportUnsol : Bool
  methodArray : Nat → Bool

/-- The memory a registration finds: for one more client, for how many more versions and
classes, and for a longer vector of methods. -/
structure RegEnv where
  client : Bool
  versions : Nat
  classes : Nat
  methods : Bool
deriving DecidableEq, Repr

/-- `cl_vector_set_min_size`, and its like for pointer vectors, when `granted` entries more
can be had: the vector, and whether it has the size. -/
def setMinSize {α : Type} (vector : List α) (fresh : α) (minSize granted : Nat) : List α × Bool :=
  let added := min granted (minSize - vector.length)
  (vector ++ List.replicate added fresh, decide (minSize ≤ vector.length + added))

/-- `cl_ptr_vector_set`. The first entries of a vector are allocated with it, so that it
does not fail where it is used. -/
def ptrVectorSet (methods : MethodVector) (index : Nat) (reg : Nat) : MethodVector :=
  (setMinSize methods none (index + 1) (index + 1)).1.set index (some reg)

/-- The first loop of `__mad_disp_reg_unsol`, from method `index` down to method 1: the
vector has room for the methods asked for, and nobody else has them. -/
def checkMethods (methodArray : Nat → Bool) (granted : Bool) :
    Nat → MethodVector → MethodVector × Bool
  | 0, methods => (methods, true)
  | index + 1, methods =>
      if methodArray (index + 1) then
        let (methods, sized) := setMinSize methods none (index + 2) (if granted then index + 2 else 0)
        if !sized then (methods, false)
        else if (methods[index + 1]?.join).isSome then (methods, false)
        else checkMethods methodArray granted index methods
      else checkMethods methodArray granted index methods

/-- The second loop of `__mad_disp_reg_unsol`, from method 0 up. -/
def recordMethods (methodArray : Nat → Bool) (reg : Nat) (methods : MethodVector) : MethodVector :=
  (List.range maxMethod).foldl
    (fun methods index => if methodArray index then ptrVectorSet methods index reg else methods)
    methods

/-- The method vector of a version and class, if there are entries for them. -/
def methodVector (versions : VersionVector) (version cls : Nat) : Option MethodVector :=
  versions[version]?.bind (·[cls]?)

def setMethodVector (versions : VersionVector) (version cls : Nat) (methods : MethodVector) :
    VersionVector :=
  versions.modify version (·.set cls methods)

/-- Make the entries of a version and class, as far as there is memory. -/
def prepareClass (versions : VersionVector) (version cls : Nat) (env : RegEnv) :
    VersionVector × Bool :=
  let (versions, sized) := setMinSize versions initVersionEntry (version + 1) env.versions
  if !sized then (versions, false)
  else
    let (classes, sized) := setMinSize (versions.getD version []) [] (cls + 1) env.classes
    (versions.set version classes, sized)

/-- `__mad_disp_reg_unsol` for the registration `reg`. -/
def madDispRegUnsol (versions : VersionVector) (reg : Nat) (svc : MadSvc) (env : RegEnv) :
    VersionVector × Bool :=
  let version := mgmtVersionIndex svc.mgmtVersion
  let cls := mgmtClassIndex svc.mgmtClass
  let (versions, prepared) := prepareClass versions version cls env
  if !prepared then (versions, false)
  else
    let (methods, available) := checkMethods svc.methodArray env.methods (maxMethod - 1)
      ((methodVector versions version cls).getD [])
    if !available then (setMethodVector versions version cls methods, false)
    else
      let methods := recordMethods svc.methodArray reg methods
      (setMethodVector versions version cls methods, true)

variable (disp : MadDisp)

/-- The slot a new registration takes. -/
def MadDisp.freeSlot : Nat := disp.clientVector.findIdx (·.refCnt == 0)

/-- `__mad_disp_reg` for the service `hMadSvc`: the registration, or none. -/
def madDispReg (hMadSvc : Nat) (svc : MadSvc) (env : RegEnv) : MadDisp × Option Nat :=
  let slot := disp.freeSlot
  -- Client ID overflow.
  if 0xFFFFFFFF ≤ slot then (disp, none)
  else
    let (clients, sized) := setMinSize disp.clientVector initMadReg (slot + 1)
      (if env.client then 1 else 0)
    if !sized then ({ disp with clientVector := clients }, none)
    else
      let reg := { clients.getD slot initMadReg with
        clientId := slot.toUInt32, supportUnsol := svc.supportUnsol
        mgmtClass := svc.mgmtClass, mgmtVersion := svc.mgmtVersion }
      let (versions, available) :=
        if svc.supportUnsol then madDispRegUnsol disp.versionVector slot svc env
        else (disp.versionVector, true)
      if !available then (⟨clients.set slot reg, versions⟩, none)
      else (⟨clients.set slot { reg with hMadSvc, refCnt := 1 }, versions⟩, some slot)

/-- The entries of `__mad_disp_dereg`; undefined beyond the tables. -/
def deregMethods (versions : VersionVector) (reg : Nat) (entry : MadReg) : Option VersionVector :=
  if entry.supportUnsol then do
    let version := mgmtVersionIndex entry.mgmtVersion
    let cls := mgmtClassIndex entry.mgmtClass
    let methods ← methodVector versions version cls
    some (setMethodVector versions version cls
      (methods.map fun owner => if owner = some reg then none else owner))
  else some versions

def MadDisp.setReg (reg : Nat) (entry : MadReg) : MadDisp :=
  { disp with clientVector := disp.clientVector.set reg entry }

/-- `__mad_disp_dereg`. -/
def madDispDereg (reg : Nat) : Option MadDisp := do
  let entry ← disp.clientVector[reg]?
  let versionVector ← deregMethods disp.versionVector reg entry
  some ({ disp with versionVector }.setReg reg { entry with refCnt := entry.refCnt - 1 })

/-! ### Sends and receives -/

/-- `al_mad_wr_t` with the header of its MAD; `queued` tells that `wr_id` is set. -/
structure MadWr where
  hdr : MadHdr
  clientTid : UInt64
  clientId : UInt32
  queued : Bool
deriving DecidableEq, Repr

/-- `__mad_disp_queue_send`, up to posting the work request. -/
def madDispQueueSend (reg : Nat) (wr : MadWr) : Option (MadDisp × MadWr) := do
  let entry ← disp.clientVector[reg]?
  let hdr := wr.hdr
  let transId := if useTidRouting hdr true then alSetAlTid (alSetAlTid hdr.transId 0) entry.clientId
    else hdr.transId
  some (disp.setReg reg { entry with refCnt := entry.refCnt + 1 },
    { hdr := { hdr with transId }, clientTid := hdr.transId, clientId := entry.clientId
      queued := true })

/-- `mad_disp_send_done`: the dispatcher, the completed work request and the service told. -/
def madDispSendDone (wr : MadWr) : Option (MadDisp × MadWr × Nat) := do
  let entry ← disp.clientVector[wr.clientId.toNat]?
  some (disp.setReg wr.clientId.toNat { entry with refCnt := entry.refCnt - 1 },
    { wr with hdr := { wr.hdr with transId := wr.clientTid }, queued := false }, entry.hMadSvc)

/-- The registration the tables have for a version, class and method. -/
def MadDisp.owner (version cls method : Nat) : Option Nat :=
  ((methodVector disp.versionVector version cls).bind (·[method]?)).join

/-- Where `mad_disp_recv_done` routes a MAD, and the MAD's header then. -/
def routeMad (hdr : MadHdr) : Option (Nat × MadHdr) :=
  if useTidRouting hdr false then
    let client := (alGetAlTid hdr.transId).toNat
    if disp.clientVector.length ≤ client then none
    else some (client, { hdr with transId := alSetAlTid hdr.transId 0 })
  else
    let method := (hdr.method &&& ~~~ibMadMethodRespMask).toNat
    (disp.owner (mgmtVersionIndex hdr.classVer) (mgmtClassIndex hdr.mgmtClass) method).map (·, hdr)

/-- `mad_disp_recv_done`: the service the MAD is delivered to and its header then, or
none if there is nobody. -/
def madDispRecvDone (hdr : MadHdr) : Option (Nat × MadHdr) := do
  let (reg, hdr) ← routeMad disp hdr
  let entry ← disp.clientVector[reg]?
  if entry.refCnt = 0 then none else some (entry.hMadSvc, hdr)

/-! ### The system -/

/-- A request, with the transaction ID its user gave and the one on the wire. `apart` is as
for the work request that posts it. -/
structure Request where
  svc : Nat
  userTid : UInt64
  wireTid : UInt64
  apart : Bool
deriving DecidableEq, Repr

/-- A work request, the service that posts it and the transaction ID its user gave.
`apart` tells that it is an RMPP send from a buffer apart from the registered block; `holder` is
the service of the registration that it was last posted through. -/
structure Posted where
  wr : MadWr
  svc : Nat
  userTid : UInt64
  apart : Bool
  holder : Nat
deriving DecidableEq, Repr

/-- A dispatcher with the services and work requests around it. `regs` is `h_mad_reg` of the
services, which stays set when they deregister; `handles` are the registrations of those that have
not; `inFlight` are the work requests posted; `requests` is the history. -/
structure DispSys where
  disp : MadDisp
  nextSvc : Nat
  handles : Nat → Option Nat
  regs : Nat → Option Nat
  wrs : Nat → Option Posted
  inFlight : List Nat
  requests : List Request

/-- A service registers or deregisters, posts a new MAD, posts the same MAD again, has
a send completed, or a MAD is received. -/
inductive DispEvent
  | register (svc : MadSvc) (env : RegEnv)
  | deregister (svc : Nat)
  | send (svc wr : Nat) (hdr : MadHdr) (apart : Bool)
  | resend (wr : Nat)
  | sendDone (wr : Nat)
  | recv (hdr : MadHdr)

/-- `__queue_mad_wr` of a service, which need not be registered any more: `__destroying_mad_svc`
deregisters it before it cancels its sends. It copies an RMPP segment to the registered block
before the dispatcher gives the header its transaction ID. -/
def DispSys.post (sys : DispSys) (id : Nat) (posted : Posted) : Option DispSys := do
  let reg ← sys.regs posted.svc
  let entry ← sys.disp.clientVector[reg]?
  let (disp, wr) ← madDispQueueSend sys.disp reg posted.wr
  let wireTid := if posted.apart then posted.wr.hdr.transId else wr.hdr.transId
  let requests := if useTidRouting posted.wr.hdr true
    then ⟨posted.svc, posted.userTid, wireTid, posted.apart⟩ :: sys.requests else sys.requests
  let posted := { posted with wr, holder := entry.hMadSvc }
  some { sys with disp, wrs := Function.update sys.wrs id (some posted)
                  inFlight := id :: sys.inFlight, requests }

/-- The dispatcher after an event. -/
def DispSys.next (sys : DispSys) : DispEvent → Option DispSys
  | .register svc env =>
      let (disp, reg) := madDispReg sys.disp sys.nextSvc svc env
      some { sys with disp, nextSvc := sys.nextSvc + 1
                      handles := Function.update sys.handles sys.nextSvc reg
                      regs := Function.update sys.regs sys.nextSvc reg }
  | .deregister svc => do
      let reg ← sys.handles svc
      let disp ← madDispDereg sys.disp reg
      some { sys with disp, handles := Function.update sys.handles svc none }
  | .send svc id hdr apart => sys.post id ⟨⟨hdr, 0, 0, false⟩, svc, hdr.transId, apart, svc⟩
  | .resend id => do
      let posted ← sys.wrs id
      sys.post id posted
  | .sendDone id => do
      let posted ← sys.wrs id
      let (disp, wr, _) ← madDispSendDone sys.disp posted.wr
      some { sys with disp, wrs := Function.update sys.wrs id (some { posted with wr })
                      inFlight := sys.inFlight.erase id }
  | .recv _ => some sys

/-- A new dispatcher. -/
def createDispSys : DispSys :=
  ⟨createMadDisp, 0, fun _ => none, fun _ => none, fun _ => none, [], []⟩

/-- The dispatcher from its creation on. -/
def dispMachine : Transition.Machine DispSys DispEvent :=
  .ofNext (· = createDispSys) DispSys.next

/-- How services use the dispatcher: they deregister once and post once they have registered, a
work request is posted again only when its last send is done, and sends complete once. -/
def LawfulDisp (sys : DispSys) : DispEvent → Prop
  | .register _ _ => True
  | .deregister svc => (sys.handles svc).isSome
  | .send svc id _ _ => (sys.regs svc).isSome ∧ id ∉ sys.inFlight
  | .resend id => id ∉ sys.inFlight ∧ (sys.wrs id).isSome
  | .sendDone id => id ∈ sys.inFlight
  | .recv _ => True

end WinOFED.Mad.Dispatch
