import WinOFED.Cep.Listen

/-! The CEP manager: connection end points, their identifiers, and the maps and lists they
are linked in.

Every function runs under the manager's lock. A result `none` stands for undefined
behaviour: memory of a freed CEP, a NULL MAD, a pointer to nowhere. -/
namespace WinOFED.Cep
open RedBlack Complib

/-- MADs are told apart by where they are allocated. -/
abbrev MadId := Nat

/-- What `h_al` of a bound CEP is: `gh_al` after `__unbind_cep`, before that the AL
instance of the client. -/
inductive Owner
  | internal
  | user (handle : Nat)
deriving DecidableEq, Repr

/-- `kcep_t`. Of a MAD in the CEP's list only `send_context1` is kept: the new CEP of a
received REQ. -/
structure Kcep extends ListenParams where
  cid : Nat
  localCommId : UInt32
  remoteCommId : UInt32
  remoteCaGuid : UInt64
  localQpn : UInt32
  remoteQpn : UInt32
  state : CepState
  wasActive : Bool
  p2p : Bool
  pMad : Option MadId
  pSendMad : Option MadId
  refCnt : Int
  madList : List (Option CepId)
  signalled : Bool
deriving DecidableEq, Repr

/-- `cep_cid_t` of an entry; in a free one `h_al` is NULL. -/
structure CidEntry where
  hAl : Option Owner
  pCep : CepId
  modifier : UInt8
deriving DecidableEq, Repr

/-- `al_cep_mgr_t` with the memory of its CEPs and what is on the way outside of its lock. -/
structure CepMgr where
  /-- The allocated CEPs. -/
  ceps : CepId → Option Kcep
  nextCep : CepId
  cidVector : Nat → CidEntry
  cidSize : Nat
  /-- The free entries of the vector, in the order of their list. -/
  freeCids : List Nat
  listenMap : RbMap CepId
  connIdMap : RbMap CepId
  connQpMap : RbMap CepId
  timewaitList : List CepId
  nextMad : MadId
  /-- MADs that `ib_send_mad` accepted for a CEP and whose send callback has not run. -/
  sends : List (MadId × CepId)
  /-- One reference of the CEP for each callback that still runs: those of the users, and
  the send callback after it has released the lock. -/
  callbacks : List CepId
  /-- `__cep_send_retry` has been entered with `p_send_mad` set. -/
  busySend : Bool

/-- What the functions outside of the manager return: whether there is an agent for the
CEP's port, `ib_get_mad` has a MAD, the data can be formatted, `ib_send_mad` accepts. -/
structure Outcome where
  agent : Bool
  getMad : Bool
  format : Bool
  send : Bool
deriving DecidableEq, Repr

/-- `__cep_get_mad` succeeds. -/
def Outcome.mad (outcome : Outcome) : Bool := outcome.agent && outcome.getMad

namespace CepMgr

/-- Store a CEP. -/
def setCep (mgr : CepMgr) (cep : CepId) (value : Kcep) : CepMgr :=
  { mgr with ceps := fun id => if id = cep then some value else mgr.ceps id }

/-- Store an entry of the CID vector. -/
def setCid (mgr : CepMgr) (cid : Nat) (entry : CidEntry) : CepMgr :=
  { mgr with cidVector := fun index => if index = cid then entry else mgr.cidVector index }

end CepMgr

/-! ### Communication IDs -/

/-- `CEP_MAX_CID_MASK`. -/
def cepMaxCidMask : UInt32 := 0x00FFFFFF

/-- `CEP_CID_MIN` and `CEP_CID_GROW`, for pages of 4 KiB and 64-bit pointers. -/
def cepCidGrow : Nat := 170

variable (mgr : CepMgr) (cep : CepId)

/-- `__get_lcid`; `grown` says whether the vector can grow if it has to. -/
def getLcid (grown : Bool) : Option (Nat × CepMgr) :=
  match mgr.freeCids with
  | cid :: free => some (cid, { mgr with freeCids := free })
  | [] =>
      if grown then
        some (mgr.cidSize,
          { mgr with
            cidSize := mgr.cidSize + cepCidGrow
            freeCids := List.range' (mgr.cidSize + 1) (cepCidGrow - 1) })
      else none

/-- The next modifier of a CID; with CID zero it is never zero. -/
def nextModifier (cid : Nat) (modifier : UInt8) : UInt8 :=
  if cid = 0 ∧ modifier + 1 = 0 then modifier + 2 else modifier + 1

/-- The communication ID of a CID. -/
def commId (cid : Nat) (modifier : UInt8) : UInt32 :=
  UInt32.ofNat cid ||| modifier.toUInt32 <<< 24

/-- A CEP as `__create_cep` makes it, with its reference count charged. -/
def newKcep (cid : Nat) (localCommId : UInt32) : Kcep :=
  { sid := 0, portGuid := 0, cmpBuf := none, cmpLen := 0, cmpOffset := 0, cid, localCommId
    remoteCommId := 0, remoteCaGuid := 0, localQpn := 0, remoteQpn := 0, state := .idle
    wasActive := false, p2p := false, pMad := none, pSendMad := none, refCnt := 1
    madList := [], signalled := false }

/-- `__create_cep`, NULL if there is no memory or no CID. -/
def createCep (allocated grown : Bool) : Option (CepId × CepMgr) :=
  if allocated then do
    let (cid, mgr) ← getLcid mgr grown
    let modifier := nextModifier cid (mgr.cidVector cid).modifier
    let cep := mgr.nextCep
    let mgr := { mgr with nextCep := cep + 1 }
    let mgr := mgr.setCid cid { mgr.cidVector cid with pCep := cep, modifier }
    some (cep, mgr.setCep cep (newKcep cid (commId cid modifier)))
  else none

/-- `__bind_cep`. -/
def bindCep (cid : Nat) (owner : Option Owner) : CepMgr :=
  mgr.setCid cid { mgr.cidVector cid with hAl := owner }

/-- `__unbind_cep`. -/
def unbindCep : Option CepMgr := do
  let kcep ← mgr.ceps cep
  some (bindCep mgr kcep.cid (some .internal))

/-- `__lookup_cep`. The handle is NULL for received MADs; these have to match the whole
communication ID. -/
def lookupCep (handle : Option Nat) (cid : UInt32) : Option (Option CepId) :=
  let index := (cid &&& cepMaxCidMask).toNat
  let entry := mgr.cidVector index
  if mgr.cidSize ≤ index then some none
  else match entry.hAl, handle with
    | none, _ => some none
    | some owner, some handle => some (if owner = .user handle then some entry.pCep else none)
    | some _, none => do
        let kcep ← mgr.ceps entry.pCep
        some (if kcep.localCommId = cid then some entry.pCep else none)

/-! ### The connection maps -/

namespace CepMgr

/-- What the memory of a CEP says; that of a freed one says anything. -/
def read : Kcep := (mgr.ceps cep).getD (newKcep 0 0)

/-- The listen map with the parameters its search reads. -/
def listens : ListenTable :=
  ⟨mgr.listenMap, fun cep => (mgr.read cep).toListenParams⟩

end CepMgr

/-- Where the searches by remote communication ID and CA GUID go on. -/
def idProbe (remoteCommId : UInt32) (remoteCaGuid : UInt64) (cep : CepId) : Option Side :=
  sideOf <| (compare remoteCommId (mgr.read cep).remoteCommId).then
    (compare remoteCaGuid (mgr.read cep).remoteCaGuid)

/-- `__lookup_by_id`. -/
def lookupById (remoteCommId : UInt32) (remoteCaGuid : UInt64) : Option (Option CepId) := do
  let place ← rbmapSearch mgr.connIdMap (idProbe mgr remoteCommId remoteCaGuid)
  match place.item with
  | .item cep => some (some cep)
  | _ => some none

/-- `__insert_by_id`; returns the CEP that is in the map already. -/
def insertById (kcep : Kcep) : Option (Option CepId × CepMgr) := do
  let place ← rbmapSearch mgr.connIdMap (idProbe mgr kcep.remoteCommId kcep.remoteCaGuid)
  match place.item with
  | .item stale => some (some stale, mgr)
  | _ =>
      let connIdMap ← rbmapInsert mgr.connIdMap place.insertAt (.item cep) place.left
      some (none, { mgr with connIdMap })

/-- What the search of `__insert_by_qpn` takes for the QPN and the CA GUID of a CEP: it
takes the item in `conn_qp_map` for that in `conn_id_map`, so that it reads other bytes of
the CEP. -/
abbrev Misread := CepId → UInt32 × UInt64

/-- `__insert_by_qpn`; whether the CEP is in the map now. -/
def insertByQpn (kcep : Kcep) (misread : Misread) : Option (Bool × CepMgr) := do
  let place ← rbmapSearch mgr.connQpMap fun entry =>
    sideOf <| (compare kcep.remoteQpn (misread entry).1).then
      (compare kcep.remoteCaGuid (misread entry).2)
  match place.item with
  | .item _ => some (false, mgr)
  | _ =>
      let connQpMap ← rbmapInsert mgr.connQpMap place.insertAt (.item cep) place.left
      some (true, { mgr with connQpMap })

/-- What `__insert_cep` returns: the CEP itself, another one with its communication ID, or,
after a search by QPN, a pointer into the middle of another one. -/
inductive Inserted
  | inserted
  | stale (other : CepId)
  | astray
deriving DecidableEq, Repr

/-- `__insert_cep`. -/
def insertCep (misread : Misread) : Option (Inserted × CepMgr) := do
  let kcep ← mgr.ceps cep
  let cleared := { kcep with remoteQpn := 0, remoteCommId := 0 }
  let (byQpn, mgr) ← insertByQpn mgr cep kcep misread
  if byQpn then do
    let (found, mgr) ← insertById mgr cep kcep
    match found with
    | none => some (.inserted, mgr)
    | some other =>
        let connQpMap ← rbmapRemoveItem mgr.connQpMap (.item cep)
        some (.stale other, { mgr with connQpMap }.setCep cep cleared)
  else some (.astray, mgr.setCep cep cleared)

/-- Take a CEP out of a connection map if the remote identifier says that it is in it. -/
def removeMarked (map : RbMap CepId) (cep : CepId) (remote : UInt32) : Option (RbMap CepId) :=
  if remote ≠ 0 then rbmapRemoveItem map (.item cep) else some map

/-- `__remove_cep`. -/
def removeCep : Option CepMgr := do
  let kcep ← mgr.ceps cep
  let connIdMap ← removeMarked mgr.connIdMap cep kcep.remoteCommId
  let connQpMap ← removeMarked mgr.connQpMap cep kcep.remoteQpn
  some ({ mgr with connIdMap, connQpMap }.setCep cep { kcep with remoteCommId := 0, remoteQpn := 0 })

/-! ### MADs and timewait -/

/-- A MAD of the pool. -/
def getMad : MadId × CepMgr :=
  (mgr.nextMad, { mgr with nextMad := mgr.nextMad + 1 })

/-- `__cep_queue_mad`, and the user's callback started if that is due. -/
def queueMad (sendContext1 : Option CepId) : Option CepMgr := do
  let kcep ← mgr.ceps cep
  if kcep.state = .destroy then some mgr
  else
    let queued := { kcep with madList := kcep.madList ++ [sendContext1] }
    if kcep.madList ≠ [] ∨ kcep.signalled then some (mgr.setCep cep queued)
    else some ({ mgr with callbacks := cep :: mgr.callbacks }.setCep cep
      { queued with signalled := true, refCnt := kcep.refCnt + 1 })

/-- `__cep_send_retry`; whether `ib_send_mad` accepts the MAD. -/
def cepSendRetry (mad : MadId) (sent : Bool) : Option CepMgr := do
  let kcep ← mgr.ceps cep
  let mgr := { mgr with busySend := mgr.busySend || kcep.pSendMad.isSome }
  if sent then
    some ({ mgr with sends := (mad, cep) :: mgr.sends }.setCep cep
      { kcep with pSendMad := some mad, refCnt := kcep.refCnt + 1 })
  else some (mgr.setCep cep { kcep with pSendMad := none })

/-- `__insert_timewait`. -/
def insertTimewait : CepMgr :=
  { mgr with timewaitList := mgr.timewaitList ++ [cep] }

end WinOFED.Cep
