import WinOFED.Transition.Machine

/-! The pool of fast memory regions (FMRs).

Callers map page lists through the pool from any number of threads, and one cleanup
thread gives worn elements back to the driver. Only what runs under `pool_lock` is
atomic, so a map call and a cleanup round are followed from lock section to lock
section, with the driver's work between them. -/
namespace WinOFED.Al

/-- What a driver holds for a region that is mapped. -/
structure FmrMapping where
  pages : List UInt64
  vaddr : UInt64
  lkey : UInt32
  rkey : UInt32
deriving DecidableEq, Repr

/-- A region in the driver: how often it was mapped since it was last unmapped, and what
it maps now. -/
structure Fmr where
  maps : Nat
  mapping : Option FmrMapping
deriving DecidableEq, Repr

/-- `vaddr & ~(PAGE_SIZE - 1)`. -/
def pageStart (vaddr : UInt64) : UInt64 := vaddr &&& 0xFFFFFFFFFFFFF000

/-- `mlnx_map_phys_fmr` with the checks of `mlx4_check_fmr` and `mthca_check_fmr`. The
keys are the ones the driver assigns; there are none where it fails by itself. All its
checks come before it touches the region. -/
def Fmr.mapPhys (maxMaps : Nat) (fmr : Fmr) (pages : List UInt64) (vaddr : UInt64) :
    Option (UInt32 × UInt32) → Option Fmr
  | none => none
  | some (lkey, rkey) =>
    if fmr.maps ≥ maxMaps then none
    else some ⟨fmr.maps + 1, some ⟨pages, pageStart vaddr, lkey, rkey⟩⟩

/-- `mlx4_fmr_unmap` and its counterparts in the other driver. -/
def Fmr.unmap (fmr : Fmr) : Fmr := if fmr.maps = 0 then fmr else ⟨0, none⟩

/-- The lists `p_cur_list` may point to. -/
inductive CurList
  | free | dirty | rest
deriving DecidableEq, Repr

/-- `mlnx_fmr_pool_element_t`. -/
structure FmrPoolEl where
  hFmr : Fmr
  pCurList : CurList
  inCash : Bool
  refCount : Int
  remapCount : Nat
  ioVirtualAddress : UInt64
  lkey : UInt32
  rkey : UInt32
  pageListLen : Nat
  pageList : List UInt64
deriving DecidableEq, Repr

/-- What a caller asks to have mapped. -/
structure MapRequest where
  pages : List UInt64
  vaddr : UInt64
deriving DecidableEq, Repr

/-- `mlnx_fmr_pool_t`. The elements are numbered in the order they were made. -/
structure FmrPool where
  maxPages : Nat
  maxRemaps : Nat
  dirtyWatermark : Nat
  dirtyLen : Nat
  els : Nat → FmrPoolEl
  freeList : List Nat
  dirtyList : List Nat
  restList : List Nat
  /-- Whether `cache_bucket` was allocated. -/
  cache : Bool
  cacheBucket : UInt32 → List Nat
  flushReq : Nat

/-- `hash_mix`, for the word it leaves in `c`. -/
def hashMix (a b c : UInt32) : UInt32 :=
  let a := (a - b - c) ^^^ (c >>> 13)
  let b := (b - c - a) ^^^ (a <<< 8)
  let c := (c - a - b) ^^^ (b >>> 13)
  let a := (a - b - c) ^^^ (c >>> 12)
  let b := (b - c - a) ^^^ (a <<< 16)
  let c := (c - a - b) ^^^ (b >>> 5)
  let a := (a - b - c) ^^^ (c >>> 3)
  let b := (b - c - a) ^^^ (a <<< 10)
  (c - a - b) ^^^ (b >>> 15)

/-- `hash_2words`. -/
def hash2words (a b c : UInt32) : UInt32 := hashMix (a + 0x9e3779b9) (b + 0x9e3779b9) c

/-- `__fmr_hash`, with `IB_FMR_HASH_SIZE` buckets. -/
def fmrHash (firstPage : UInt64) : UInt32 :=
  hash2words firstPage.toUInt32 (firstPage >>> 32).toUInt32 0 &&& 255

/-- The bucket an element goes to. -/
def FmrPoolEl.bucket (el : FmrPoolEl) : UInt32 := fmrHash (el.pageList.headD 0)

/-- The comparison of `__fmr_cache_lookup`. -/
def FmrPoolEl.serves (el : FmrPoolEl) (request : MapRequest) : Bool :=
  request.vaddr == el.ioVirtualAddress && request.pages.length == el.pageListLen &&
    request.pages == el.pageList.take request.pages.length

namespace FmrPool

variable (pool : FmrPool) (index : Nat)

def setEl (el : FmrPoolEl) : FmrPool :=
  { pool with els := Function.update pool.els index el }

/-- `__fmr_cache_lookup`. -/
def fmrCacheLookup (request : MapRequest) : Option Nat :=
  if pool.cache then
    (pool.cacheBucket (fmrHash (request.pages.headD 0))).find? fun index =>
      (pool.els index).serves request
  else none

/-- Take an element out of the cache if it is there. -/
def dropCached : FmrPool :=
  let el := pool.els index
  if el.inCash then
    { pool.setEl index { el with inCash := false } with
      cacheBucket := Function.update pool.cacheBucket el.bucket
        ((pool.cacheBucket el.bucket).erase index) }
  else pool

/-- `cl_qlist_remove_item` from the list an element says it is on. -/
def unlink : FmrPool :=
  match (pool.els index).pCurList with
  | .free => { pool with freeList := pool.freeList.erase index }
  | .dirty => { pool with dirtyList := pool.dirtyList.erase index }
  | .rest => { pool with restList := pool.restList.erase index }

/-- Insert an element at the tail of a list that it then points to. -/
def insertTail (list : CurList) : FmrPool :=
  let pool := pool.setEl index { pool.els index with pCurList := list }
  match list with
  | .free => { pool with freeList := pool.freeList ++ [index] }
  | .dirty => { pool with dirtyList := pool.dirtyList ++ [index] }
  | .rest => { pool with restList := pool.restList ++ [index] }

/-- A cached element gets one more reference. -/
def reviveEl : FmrPool :=
  let el := pool.els index
  let pool := pool.setEl index { el with refCount := el.refCount + 1 }
  if el.refCount + 1 = 1 then (pool.unlink index).insertTail index .rest else pool

/-- How the first lock section of a map call ends: `IB_INVALID_PARAMETER`,
`IB_RESOURCE_BUSY`, an element of the cache, or one taken off the free list. -/
inductive MapStart
  | invalidParameter
  | resourceBusy
  | found (index : Nat) (pool : FmrPool)
  | taken (index : Nat) (pool : FmrPool)

/-- `mlnx_map_phys_fmr_pool` up to the driver's call. -/
def mapStart (request : MapRequest) : MapStart :=
  if request.pages.length < 1 ∨ request.pages.length > pool.maxPages then .invalidParameter
  else match pool.fmrCacheLookup request with
    | some index => .found index (pool.reviveEl index)
    | none => match pool.freeList with
      | [] => .resourceBusy
      | index :: rest => .taken index ({ pool with freeList := rest }.dropCached index)

/-- The driver maps the element, and the call notes what it was given. -/
def driverMap (request : MapRequest) (keys : Option (UInt32 × UInt32)) : Option FmrPool :=
  let el := pool.els index
  match el.hFmr.mapPhys pool.maxRemaps request.pages request.vaddr keys with
  | none => none
  | some fmr =>
    let keys := keys.getD (0, 0)
    some (pool.setEl index
      { el with hFmr := fmr, remapCount := el.remapCount + 1, refCount := 1, lkey := keys.1,
                rkey := keys.2, ioVirtualAddress := pageStart request.vaddr })

/-- Copy the page list and enter the element in the cache. -/
def cacheEl (request : MapRequest) : FmrPool :=
  let old := pool.els index
  let len := request.pages.length
  let el := { old with pageListLen := len, pageList := request.pages ++ old.pageList.drop len,
                       inCash := true }
  { pool.setEl index el with
    cacheBucket := Function.update pool.cacheBucket el.bucket
      (index :: pool.cacheBucket el.bucket) }

/-- Insert an element at the tail of the dirty list, which is counted. -/
def insertDirty : FmrPool :=
  { pool.insertTail index .dirty with dirtyLen := pool.dirtyLen + 1 }

/-- An element lost its last reference: it can be mapped again or needs an unmap first. -/
def retireEl : FmrPool :=
  let unlinked := if (pool.els index).pCurList = .rest then pool.unlink index else pool
  if (pool.els index).remapCount < pool.maxRemaps then unlinked.insertTail index .free
  else unlinked.insertDirty index

/-- `mlnx_unmap_fmr_pool`. -/
def unmapEl : FmrPool :=
  let el := pool.els index
  let pool := pool.setEl index { el with refCount := el.refCount - 1 }
  if el.refCount - 1 = 0 then pool.retireEl index else pool

/-- What the loop of `__fmr_pool_batch_release` does to an element of the dirty list. -/
def releaseEl : FmrPool :=
  let pool := pool.dropCached index
  pool.setEl index { pool.els index with remapCount := 0 }

/-- The first lock section of `__fmr_pool_batch_release`; the dirty list becomes the
local `unmap_list`. -/
def detachDirty : FmrPool :=
  { pool.dirtyList.foldl releaseEl pool with dirtyList := [], dirtyLen := 0 }

/-- The driver unmaps a list of elements. -/
def driverUnmap (unmapList : List Nat) : FmrPool :=
  { pool with els := fun index =>
      if index ∈ unmapList then { pool.els index with hFmr := (pool.els index).hFmr.unmap }
      else pool.els index }

/-- The last lock section of `__fmr_pool_batch_release`. `p_cur_list` keeps pointing to
the dirty list. -/
def attachFree (unmapList : List Nat) : FmrPool :=
  { pool with freeList := unmapList ++ pool.freeList }

end FmrPool

/-- `mlnx_fmr_pool_create_t`, as far as mapping depends on it. -/
structure FmrPoolCreate where
  maxPagesPerFmr : Nat
  poolSize : Nat
  dirtyWatermark : Nat
  cache : Bool

/-- `mlnx_create_fmr_pool` on a channel adapter that allows `maxMapPerFmr` maps, with
`IB_FMR_MAX_REMAPS` where it names no limit. It also refuses a watermark of 0. -/
def createFmrPool (attr : FmrPoolCreate) (maxMapPerFmr : Nat) : FmrPool where
  maxPages := attr.maxPagesPerFmr
  maxRemaps := if maxMapPerFmr = 0 then 32 else maxMapPerFmr
  dirtyWatermark := attr.dirtyWatermark
  dirtyLen := 0
  els _ := { hFmr := ⟨0, none⟩, pCurList := .free, inCash := false, refCount := 0,
             remapCount := 0, ioVirtualAddress := 0, lkey := 0, rkey := 0, pageListLen := 0,
             pageList := List.replicate attr.maxPagesPerFmr 0 }
  freeList := List.range attr.poolSize
  dirtyList := []
  restList := []
  cache := attr.cache
  cacheBucket _ := []
  flushReq := 0

/-- Where a thread stands in `mlnx_map_phys_fmr_pool`. -/
inductive MapPhase
  | idle
  /-- Off the free list, the driver's map to come. -/
  | popped (index : Nat) (request : MapRequest)
  /-- The driver failed; the element goes back to the free list. -/
  | refused (index : Nat)
  /-- The driver mapped the element, which is on no list yet. -/
  | mapped (index : Nat) (request : MapRequest)
  /-- On the rest list, to be entered in the cache. -/
  | rested (index : Nat) (request : MapRequest)
deriving DecidableEq, Repr

/-- Where the cleanup thread stands in `__fmr_pool_batch_release`. -/
inductive CleanupPhase
  | waiting
  /-- The detached elements, the driver's unmap to come. -/
  | detached (unmapList : List Nat)
  /-- The driver is done with them. -/
  | unmapped (unmapList : List Nat)
deriving DecidableEq, Repr

/-- What a successful map call returned and its caller has not given back. -/
structure FmrGrant where
  index : Nat
  request : MapRequest
  vaddr : UInt64
  lkey : UInt32
  rkey : UInt32
deriving DecidableEq, Repr

/-- A pool with the threads that use it. -/
structure FmrSys where
  pool : FmrPool
  calls : Nat → MapPhase
  cleanup : CleanupPhase
  grants : List FmrGrant

/-- What the users of the pool, its cleanup thread and the driver do. -/
inductive FmrEvent
  /-- A thread calls `mlnx_map_phys_fmr_pool`. -/
  | map (thread : Nat) (request : MapRequest)
  /-- The driver answers a thread's map. -/
  | driverMap (thread : Nat) (keys : Option (UInt32 × UInt32))
  /-- A thread's next lock section after the driver's answer. -/
  | proceed (thread : Nat)
  /-- A caller gives back what it was granted. -/
  | unmap (grant : FmrGrant)
  /-- `mlnx_flush_fmr_pool` asks for a cleanup round. -/
  | flush
  /-- The cleanup thread looks whether there is work and detaches the dirty list. -/
  | cleanup
  /-- The driver answers the cleanup thread; it may not have unmapped anything. -/
  | driverUnmap (done : Bool)
  /-- The cleanup thread returns the detached elements. -/
  | cleanupDone
deriving DecidableEq, Repr

namespace FmrSys

variable (sys : FmrSys)

/-- The end of a successful map call. -/
def grant (index : Nat) (request : MapRequest) : FmrSys :=
  let el := sys.pool.els index
  { sys with grants := ⟨index, request, el.ioVirtualAddress, el.lkey, el.rkey⟩ :: sys.grants }

/-- A thread goes to a phase of its call. -/
def setCall (thread : Nat) (phase : MapPhase) : FmrSys :=
  { sys with calls := Function.update sys.calls thread phase }

/-- `mlnx_map_phys_fmr_pool` up to the driver. -/
def mapCall (thread : Nat) (request : MapRequest) : FmrSys :=
  match sys.pool.mapStart request with
  | .invalidParameter | .resourceBusy => sys
  | .found index pool => { sys with pool }.grant index request
  | .taken index pool => { sys with pool }.setCall thread (.popped index request)

/-- The driver has answered a map. -/
def driverAnswer (thread index : Nat) (request : MapRequest)
    (keys : Option (UInt32 × UInt32)) : FmrSys :=
  match sys.pool.driverMap index request keys with
  | none => sys.setCall thread (.refused index)
  | some pool => { sys with pool }.setCall thread (.mapped index request)

/-- A mapped element joins the rest list; without a cache the call is then over. -/
def restEl (thread index : Nat) (request : MapRequest) : FmrSys :=
  let sys := { sys with pool := sys.pool.insertTail index .rest }
  if sys.pool.cache then sys.setCall thread (.rested index request)
  else (sys.setCall thread .idle).grant index request

/-- A cleanup round ends; it answers one flush request. -/
def cleanupEnd (unmapList : List Nat) : FmrSys :=
  let pool := sys.pool.attachFree unmapList
  { sys with pool := { pool with flushReq := pool.flushReq - 1 }, cleanup := .waiting }

/-- `__fmr_cleanup_thread` when it is awake. With nothing to unmap the round is over at
once. -/
def cleanupRound : FmrSys :=
  let pool := sys.pool
  if pool.flushReq ≠ 0 ∨ pool.dirtyLen ≥ pool.dirtyWatermark then
    let sys := { sys with pool := pool.detachDirty }
    if pool.dirtyList = [] then sys.cleanupEnd []
    else { sys with cleanup := .detached pool.dirtyList }
  else sys

/-- The pool after an event that can happen. -/
def next : FmrEvent → Option FmrSys
  | .map thread request =>
    match sys.calls thread with
    | .idle => some (sys.mapCall thread request)
    | _ => none
  | .driverMap thread keys =>
    match sys.calls thread with
    | .popped index request => some (sys.driverAnswer thread index request keys)
    | _ => none
  | .proceed thread =>
    match sys.calls thread with
    | .refused index =>
      some ({ sys with pool := sys.pool.insertTail index .free }.setCall thread .idle)
    | .mapped index request => some (sys.restEl thread index request)
    | .rested index request =>
      some (({ sys with pool := sys.pool.cacheEl index request }.setCall thread .idle).grant
        index request)
    | _ => none
  | .unmap grant =>
    some { sys with pool := sys.pool.unmapEl grant.index, grants := sys.grants.erase grant }
  | .flush => some { sys with pool := { sys.pool with flushReq := sys.pool.flushReq + 1 } }
  | .cleanup =>
    match sys.cleanup with
    | .waiting => some sys.cleanupRound
    | _ => none
  | .driverUnmap done =>
    match sys.cleanup with
    | .detached unmapList =>
      some { sys with pool := if done then sys.pool.driverUnmap unmapList else sys.pool,
                      cleanup := .unmapped unmapList }
    | _ => none
  | .cleanupDone =>
    match sys.cleanup with
    | .unmapped unmapList => some (sys.cleanupEnd unmapList)
    | _ => none

end FmrSys

/-- A pool nobody uses yet. -/
def FmrSys.initial (attr : FmrPoolCreate) (maxMapPerFmr : Nat) : FmrSys :=
  ⟨createFmrPool attr maxMapPerFmr, fun _ => .idle, .waiting, []⟩

/-- A pool from `mlnx_create_fmr_pool` on. -/
def fmrMachine (attr : FmrPoolCreate) (maxMapPerFmr : Nat) : Transition.Machine FmrSys FmrEvent :=
  .ofNext (· = .initial attr maxMapPerFmr) FmrSys.next

/-- Callers give back what a map call returned to them, each once. -/
def LawfulFmr (sys : FmrSys) : FmrEvent → Prop
  | .unmap grant => grant ∈ sys.grants
  | _ => True

instance (sys : FmrSys) (event : FmrEvent) : Decidable (LawfulFmr sys event) := by
  unfold LawfulFmr
  split <;> infer_instance

end WinOFED.Al
