import WinOFED.Cep.State
import WinOFED.Complib.RbMap

/-! Listening CEPs: `al_cep_listen` enters them into the listen map, `__lookup_listen`
searches it for an incoming REQ. -/
namespace WinOFED.Cep
open RedBlack Complib

/-- CEPs are told apart by where they are allocated. -/
abbrev CepId := Nat

/-- `IB_ALL_PORTS`. -/
def allPorts : UInt64 := 0

/-- `IB_REQ_PDATA_SIZE`. -/
def reqPdataSize : Nat := 92

/-- The side of an item on which a search goes on after a comparison with it. -/
def sideOf : Ordering → Option Side
  | .lt => some .left
  | .eq => none
  | .gt => some .right

/-! ### Private data of RDMA CM requests -/

/-- `ib_cm_is_rdma_cm_sid`. -/
def isRdmaCmSid (sid : UInt64) : Bool := sid &&& 0x000000FFFFFFFFFF = 0x0000000100000000

/-- The fields of `ib_cm_rdma_req_t` that are compared. -/
structure RdmaReq where
  majMinVer : UInt8
  ipv : UInt8
  srcPort : UInt16
  srcIpAddr : List UInt8
  dstIpAddr : List UInt8
deriving DecidableEq, Repr

/-- `FIELD_OFFSET(ib_cm_rdma_req_t, pdata)`. -/
def rdmaReqHeader : Nat := 36

/-- The bytes of a buffer read as `ib_cm_rdma_req_t`. -/
def RdmaReq.ofBytes (bytes : List UInt8) : RdmaReq :=
  { majMinVer := bytes.getD 0 0
    ipv := bytes.getD 1 0
    srcPort := (bytes.getD 2 0).toUInt16 ||| (bytes.getD 3 0).toUInt16 <<< 8
    srcIpAddr := (bytes.drop 4).take 16
    dstIpAddr := (bytes.drop 20).take 16 }

/-- `ib_cm_is_rdma_cm_req_valid`. -/
def RdmaReq.isValid (req : RdmaReq) : Bool :=
  req.majMinVer = 0 ∧ (req.ipv = 0x40 ∨ req.ipv = 0x60)

/-- Comparison of a field under its bit of the mask. -/
def maskedCmp {β γ : Type*} [Ord γ] (mask bit : UInt8) (field : β → γ) (first second : β) :
    Ordering :=
  if mask &&& bit ≠ 0 then compare (field first) (field second) else .eq

/-- `__cm_rdma_req_cmp`, by the sign of what it returns. -/
def rdmaReqCmp (mask : UInt8) (first second : RdmaReq) : Ordering :=
  (compare first.majMinVer second.majMinVer).then <|
  (compare first.ipv second.ipv).then <|
  (maskedCmp mask 0x01 RdmaReq.srcPort first second).then <|
  (maskedCmp mask 0x02 RdmaReq.srcIpAddr first second).then <|
  maskedCmp mask 0x04 RdmaReq.dstIpAddr first second

/-! ### The listen map -/

/-- What a CEP listens for. -/
structure ListenParams where
  sid : UInt64
  portGuid : UInt64
  cmpBuf : Option (List UInt8)
  cmpLen : UInt8
  cmpOffset : UInt8
deriving DecidableEq, Repr

/-- `ib_cep_listen_t`. The compare buffer has the length given with it. -/
structure ListenInfo extends ListenParams where
  /-- The memory from the pointer field `p_cmp_buf` on. -/
  cmpBufField : Nat → UInt8
  sized : ∀ buf, cmpBuf = some buf → buf.length = cmpLen.toNat

/-- What `__lookup_listen` is given of an incoming REQ. -/
structure ListenReq where
  sid : UInt64
  portGuid : UInt64
  pdata : List UInt8
  sized : pdata.length = reqPdataSize

/-- The listen map and the CEPs' listening parameters. -/
structure ListenTable where
  map : RbMap CepId
  params : CepId → ListenParams

/-- The comparison of the ports in `al_cep_listen`. -/
def listenPortCmp (info listen : ListenParams) : Ordering :=
  if info.portGuid ≠ allPorts ∧ listen.portGuid ≠ allPorts then
    compare info.portGuid listen.portGuid
  else .eq

/-- The comparison of the compare buffers in `al_cep_listen`. Without an RDMA CM service
ID it is the memory of the pointer itself that is compared. -/
def listenDataCmp (info : ListenInfo) (listen : ListenParams) : Ordering :=
  match listen.cmpBuf, info.cmpBuf with
  | some old, some new =>
      if info.cmpLen ≠ listen.cmpLen then .eq
      else if info.cmpOffset ≠ listen.cmpOffset then .eq
      else if isRdmaCmSid info.sid then
        rdmaReqCmp listen.cmpOffset (.ofBytes new) (.ofBytes old)
      else
        compare ((List.range listen.cmpLen.toNat).map info.cmpBufField)
          (old.take listen.cmpLen.toNat)
  | _, _ => .eq

/-- Where `al_cep_listen` goes on from an established listen; it ends at a duplicate. -/
def listenProbe (info : ListenInfo) (listen : ListenParams) : Option Side :=
  sideOf <| (compare info.sid listen.sid).then <|
    (listenPortCmp info.toListenParams listen).then (listenDataCmp info listen)

/-- The status of `al_cep_listen`. -/
inductive ListenStatus
  | success
  | invalidState
  | invalidSetting
  | insufficientMemory
deriving DecidableEq, Repr

/-- The checks `al_cep_listen` makes of an RDMA CM compare buffer. -/
def validListen (info : ListenParams) : Bool :=
  match info.cmpBuf with
  | some buf =>
      if isRdmaCmSid info.sid then
        rdmaReqHeader ≤ info.cmpLen.toNat ∧ (RdmaReq.ofBytes buf).isValid
      else true
  | none => true

/-- The parameters `al_cep_listen` stores. Without a compare buffer the CEP keeps the one
it has. -/
def storeListen (info : ListenInfo) (params : ListenParams) : ListenParams :=
  { info.toListenParams with cmpBuf := info.cmpBuf.or params.cmpBuf }

/-- The parameters of the CEPs with those of one replaced. -/
def ListenTable.setParams (table : ListenTable) (cep : CepId) (params : ListenParams) :
    CepId → ListenParams :=
  fun id => if id = cep then params else table.params id

/-- `al_cep_listen` after the check of the CEP's state; `allocated` says whether there was
memory for the compare buffer. -/
def enterListen (table : ListenTable) (cep : CepId) (info : ListenInfo) (allocated : Bool) :
    Option (ListenStatus × ListenTable) :=
  if ¬ validListen info.toListenParams then some (.invalidSetting, table)
  else do
    let place ← rbmapSearch table.map fun listen => listenProbe info (table.params listen)
    if place.item ≠ rbmapEnd then some (.invalidSetting, table)
    else if info.cmpBuf.isSome ∧ ¬ allocated then some (.insufficientMemory, table)
    else do
      let map ← rbmapInsert table.map place.insertAt (.item cep) place.left
      some (.success, ⟨map, table.setParams cep (storeListen info (table.params cep))⟩)

/-- `__cancel_listen`. -/
def cancelListen (table : ListenTable) (cep : CepId) : Option ListenTable := do
  let map ← rbmapRemoveItem table.map (.item cep)
  some ⟨map, table.setParams cep { table.params cep with cmpBuf := none }⟩

/-! ### Lookup -/

/-- What `__lookup_listen` makes of one listening CEP: go on to a side, return the CEP, or
return NULL at once. With an offset beyond the private data the length of the comparison
is negative, and it reads past the REQ. -/
inductive LookupVerdict
  | goOn (side : Side)
  | matched
  | refused
  | overrun
deriving DecidableEq, Repr

/-- A comparison decides where to go on; if it finds no difference, the rest does. -/
def LookupVerdict.compared (cmp : Ordering) (rest : LookupVerdict) : LookupVerdict :=
  match sideOf cmp with
  | some side => .goOn side
  | none => rest

/-- The part of the loop of `__lookup_listen` at `pdata_cmp`. -/
def lookupData (req : ListenReq) (listen : ListenParams) : LookupVerdict :=
  match listen.cmpBuf with
  | none => .matched
  | some buf =>
      if isRdmaCmSid req.sid then
        if ¬ (RdmaReq.ofBytes req.pdata).isValid then .refused
        else .compared (rdmaReqCmp listen.cmpOffset (.ofBytes req.pdata) (.ofBytes buf)) .matched
      else if reqPdataSize < listen.cmpOffset.toNat then .overrun
      else
        let len := min listen.cmpLen.toNat (reqPdataSize - listen.cmpOffset.toNat)
        .compared (compare ((req.pdata.drop listen.cmpOffset.toNat).take len) (buf.take len))
          .matched

/-- The loop body of `__lookup_listen`. -/
def lookupVerdict (req : ListenReq) (listen : ListenParams) : LookupVerdict :=
  .compared (compare req.sid listen.sid) <|
  .compared (if listen.portGuid ≠ allPorts then compare req.portGuid listen.portGuid else .eq) <|
  lookupData req listen

/-- Where the search of `__lookup_listen` goes on. -/
def LookupVerdict.side : LookupVerdict → Option Side
  | goOn side => some side
  | _ => none

/-- `__lookup_listen`. -/
def lookupListen (table : ListenTable) (req : ListenReq) : Option (Option CepId) := do
  let place ← rbmapSearch table.map fun cep => (lookupVerdict req (table.params cep)).side
  match place.item with
  | .item cep =>
      match lookupVerdict req (table.params cep) with
      | .matched => some (some cep)
      | .refused => some none
      | _ => none
  | _ => some none

/-! ### Establishing and cancelling listens -/

/-- The listen map with the states of the CEPs. -/
structure ListenMgr where
  table : ListenTable
  state : CepId → CepState

/-- Set the state of a CEP. -/
def ListenMgr.setState (mgr : ListenMgr) (cep : CepId) (state : CepState) : ListenMgr :=
  { mgr with state := fun id => if id = cep then state else mgr.state id }

/-- `al_cep_listen`. A CEP whose REQ is prepared becomes idle even if the listen fails. -/
def alCepListen (mgr : ListenMgr) (cep : CepId) (info : ListenInfo) (allocated : Bool) :
    Option (ListenStatus × ListenMgr) :=
  match mgr.state cep with
  | .preReq | .idle => do
      let (status, table) ← enterListen mgr.table cep info allocated
      let state := if status = .success then .listen else .idle
      some (status, { mgr with table }.setState cep state)
  | _ => some (.invalidState, mgr)

/-- What happens to the listens: calls of `al_cep_listen`, cancellations (by
`kal_cep_cancel_listen` or when the CEP is destroyed), and whatever a CEP that does not
listen is used for. -/
inductive ListenEvent
  | listen (cep : CepId) (info : ListenInfo) (allocated : Bool)
  | cancel (cep : CepId) (state : CepState)
  | other (cep : CepId) (state : CepState) (sid portGuid : UInt64) (cmpLen cmpOffset : UInt8)

/-- The effect of an event. Listens are cancelled only for CEPs that listen; outside of
listening the compare buffer of a CEP is NULL. -/
def ListenMgr.next (mgr : ListenMgr) : ListenEvent → Option ListenMgr
  | .listen cep info allocated => (alCepListen mgr cep info allocated).map Prod.snd
  | .cancel cep state =>
      if mgr.state cep = .listen ∧ state ≠ .listen then do
        let table ← cancelListen mgr.table cep
        some ({ mgr with table }.setState cep state)
      else none
  | .other cep state sid portGuid cmpLen cmpOffset =>
      if mgr.state cep ≠ .listen ∧ state ≠ .listen then
        let params : ListenParams := { sid, portGuid, cmpBuf := none, cmpLen, cmpOffset }
        some ({ mgr with table := ⟨mgr.table.map, mgr.table.setParams cep params⟩ }.setState cep state)
      else none

end WinOFED.Cep
