import WinOFED.Al.FmrPool

/-! Every interleaving of map calls, unmap calls and cleanup rounds on an FMR pool.

An element is seen on its own: how often each list and each bucket holds it, which
threads work on it, and who was granted it. An operation on one element leaves what is
seen of all others, so a step is checked for the element it moves. -/
namespace WinOFED.Al
open List Option
open Function (update update_apply update_eq_self update_of_ne update_self)

/-- What a pool has on one element; of a list it is the number of occurrences. -/
@[ext]
structure ElView where
  el : FmrPoolEl
  free : Nat
  dirty : Nat
  rest : Nat
  bucket : UInt32 → Nat

/-- What the pool's lists have of an element. -/
def FmrPool.view (pool : FmrPool) (index : Nat) : ElView where
  el := pool.els index
  free := pool.freeList.count index
  dirty := pool.dirtyList.count index
  rest := pool.restList.count index
  bucket hash := (pool.cacheBucket hash).count index

theorem Fmr.maps_unmap_le (fmr : Fmr) : fmr.unmap.maps ≤ fmr.maps := by
  unfold Fmr.unmap
  split <;> simp

@[simp] theorem pageStart_pageStart (vaddr : UInt64) : pageStart (pageStart vaddr) = pageStart vaddr := by
  simp [pageStart, UInt64.and_assoc]

/-- What a call that ends with the element returns. -/
def FmrPoolEl.grantFor (el : FmrPoolEl) (index : Nat) (request : MapRequest) : FmrGrant :=
  ⟨index, request, el.ioVirtualAddress, el.lkey, el.rkey⟩

namespace ElView

variable (view : ElView)

/-- `dropCached` as the element sees it. -/
def dropCached : ElView :=
  if view.el.inCash then
    { view with el := { view.el with inCash := false },
                bucket := update view.bucket view.el.bucket
                  (view.bucket view.el.bucket - 1) }
  else view

/-- `unlink` as the element sees it. -/
def unlink : ElView :=
  match view.el.pCurList with
  | .free => { view with free := view.free - 1 }
  | .dirty => { view with dirty := view.dirty - 1 }
  | .rest => { view with rest := view.rest - 1 }

/-- `insertTail` as the element sees it. -/
def insertTail (list : CurList) : ElView :=
  let el := { view.el with pCurList := list }
  match list with
  | .free => { view with el, free := view.free + 1 }
  | .dirty => { view with el, dirty := view.dirty + 1 }
  | .rest => { view with el, rest := view.rest + 1 }

/-- `reviveEl` as the element sees it. -/
def revive : ElView :=
  let referred := { view with el := { view.el with refCount := view.el.refCount + 1 } }
  if view.el.refCount + 1 = 1 then referred.unlink.insertTail .rest else referred

/-- `cacheEl` as the element sees it. -/
def enter (request : MapRequest) : ElView :=
  let len := request.pages.length
  let el := { view.el with
    pageListLen := len, pageList := request.pages ++ view.el.pageList.drop len, inCash := true }
  { view with el, bucket := update view.bucket el.bucket (view.bucket el.bucket + 1) }

/-- `retireEl` as the element sees it. -/
def retire (maxRemaps : Nat) : ElView :=
  let unlinked := if view.el.pCurList = .rest then view.unlink else view
  if view.el.remapCount < maxRemaps then unlinked.insertTail .free else unlinked.insertTail .dirty

/-- `unmapEl` as the element sees it. -/
def unmap (maxRemaps : Nat) : ElView :=
  let referred := { view with el := { view.el with refCount := view.el.refCount - 1 } }
  if view.el.refCount - 1 = 0 then referred.retire maxRemaps else referred

/-- `releaseEl` as the element sees it. -/
def release : ElView :=
  { view.dropCached with el := { view.dropCached.el with remapCount := 0 } }

variable (view : ElView)

@[simp] theorem dropCached_inCash : view.dropCached.el.inCash = false := by
  unfold dropCached
  split <;> simp_all

/-- The buckets hold an element as its cache mark says. -/
def Indexed (view : ElView) : Prop :=
  ∀ hash, view.bucket hash = if view.el.inCash = true ∧ hash = view.el.bucket then 1 else 0

theorem grantFor_revive (index : Nat) (request : MapRequest) :
    view.revive.el.grantFor index request = view.el.grantFor index request := by
  unfold revive unlink
  simp only
  split
  · split <;> rfl
  · rfl

theorem dropCached_eq {view : ElView} (indexed : view.Indexed) :
    view.dropCached =
      { view with el := { view.el with inCash := false }, bucket := fun _ => 0 } := by
  unfold dropCached
  split
  next cached =>
    congr 1
    funext hash
    by_cases same : hash = view.el.bucket
    · subst same
      simp [indexed view.el.bucket, cached]
    · simp [indexed hash, same]
  next out =>
    have empty : view.bucket = fun _ => 0 := by
      funext hash
      simp [indexed hash, out]
    have unmarked : { view.el with inCash := false } = view.el := by
      rw [← Bool.not_eq_true _ |>.mp out]
    rw [unmarked, ← empty]

@[simp] theorem release_inCash : view.release.el.inCash = false := by
  simp [release]

theorem release_release : view.release.release = view.release := by
  rw [release, show view.release.dropCached = view.release by simp [dropCached]]
  simp [release]

end ElView

namespace FmrPool
variable (pool : FmrPool) {index : Nat}

/-- At most one element changes. -/
structure Touches (index : Nat) (after : FmrPool) : Prop where
  limit : after.maxRemaps = pool.maxRemaps
  others : ∀ other, other ≠ index → after.view other = pool.view other

/-- What becomes of that element. -/
structure Acts (index : Nat) (view : ElView) (after : FmrPool) : Prop
    extends pool.Touches index after where
  mine : after.view index = view

theorem Acts.refl : pool.Acts index (pool.view index) pool := ⟨⟨rfl, fun _ _ => rfl⟩, rfl⟩

namespace Acts
variable {pool after : FmrPool} {view : ElView} (acts : pool.Acts index view after)
include acts

theorem trans {next : ElView} {last : FmrPool} (second : after.Acts index next last) :
    pool.Acts index next last :=
  ⟨⟨second.limit.trans acts.limit,
    fun other ne => (second.others other ne).trans (acts.others other ne)⟩, second.mine⟩

theorem el_eq : after.els index = view.el := congrArg ElView.el acts.mine

theorem setEl (el : FmrPoolEl) : pool.Acts index { view with el } (after.setEl index el) := by
  refine acts.trans ⟨⟨rfl, fun other ne => by simp [FmrPool.view, FmrPool.setEl, ne]⟩, ?_⟩
  rw [← acts.mine]
  simp [FmrPool.view, FmrPool.setEl]

/-- An element and its place in a bucket change. -/
theorem setBucket (el : FmrPoolEl) (hash : UInt32) {bucket : List Nat}
    (same : ∀ other, other ≠ index → bucket.count other = (after.cacheBucket hash).count other) :
    pool.Acts index
      { view with el, bucket := update view.bucket hash (bucket.count index) }
      { after.setEl index el with cacheBucket := update after.cacheBucket hash bucket } := by
  refine acts.trans ⟨⟨rfl, fun other ne => ?_⟩, ?_⟩
  · simp only [FmrPool.view, FmrPool.setEl, update_of_ne ne, ElView.mk.injEq, true_and]
    funext any
    simp only [update_apply]
    split
    next here => rw [here, same other ne]
    next => rfl
  · rw [← acts.mine]
    simp only [FmrPool.view, FmrPool.setEl, update_self, ElView.mk.injEq, true_and]
    funext any
    simp only [update_apply]
    split <;> rfl

theorem dropCached : pool.Acts index view.dropCached (after.dropCached index) := by
  have dropped := acts.setBucket { view.el with inCash := false } view.el.bucket
    fun other ne => count_erase_of_ne ne
  unfold FmrPool.dropCached ElView.dropCached
  simp only [acts.el_eq]
  split
  · rw [count_erase_self] at dropped
    rwa [← acts.mine] at dropped ⊢
  · exact acts

theorem unlink : pool.Acts index view.unlink (after.unlink index) := by
  unfold FmrPool.unlink ElView.unlink
  rw [acts.el_eq]
  cases view.el.pCurList <;>
    refine acts.trans ⟨⟨rfl, fun other ne => by simp [FmrPool.view, count_erase_of_ne ne]⟩, ?_⟩ <;>
    simp [← acts.mine, FmrPool.view]

theorem insertTail (list : CurList) :
    pool.Acts index (view.insertTail list) (after.insertTail index list) := by
  cases list <;> refine acts.trans ⟨⟨rfl, fun other ne => ?_⟩, ?_⟩ <;>
    simp [FmrPool.insertTail, ElView.insertTail, ← acts.mine, FmrPool.view, FmrPool.setEl, *, Ne.symm]

theorem releaseEl : pool.Acts index view.release (after.releaseEl index) := by
  unfold FmrPool.releaseEl
  simp only [acts.dropCached.el_eq]
  exact acts.dropCached.setEl _

theorem reviveEl : pool.Acts index view.revive (after.reviveEl index) := by
  unfold FmrPool.reviveEl ElView.revive
  simp only [acts.el_eq]
  split
  · exact (acts.setEl _).unlink.insertTail .rest
  · exact acts.setEl _

theorem cacheEl (request : MapRequest) :
    pool.Acts index (view.enter request) (after.cacheEl index request) := by
  have entered := fun el => acts.setBucket el el.bucket fun other ne =>
    @count_cons_of_ne _ _ _ _ _ ne.symm (after.cacheBucket el.bucket)
  unfold FmrPool.cacheEl ElView.enter
  simp only [count_cons_self] at entered
  simp only [← acts.mine] at entered ⊢
  exact entered _

theorem retireEl : pool.Acts index (view.retire pool.maxRemaps) (after.retireEl index) := by
  unfold FmrPool.retireEl ElView.retire
  rw [acts.el_eq, acts.limit]
  have unlinked : pool.Acts index (if view.el.pCurList = .rest then view.unlink else view)
      (if view.el.pCurList = .rest then after.unlink index else after) := by
    split
    · exact acts.unlink
    · exact acts
  dsimp only
  by_cases room : view.el.remapCount < pool.maxRemaps
  · rw [if_pos room, if_pos room]
    exact unlinked.insertTail .free
  · have tail := unlinked.insertTail .dirty
    rw [if_neg room, if_neg room]
    exact ⟨⟨tail.limit, tail.others⟩, tail.mine⟩

theorem unmapEl : pool.Acts index (view.unmap pool.maxRemaps) (after.unmapEl index) := by
  unfold FmrPool.unmapEl ElView.unmap
  simp only [acts.el_eq]
  split
  · exact (acts.setEl _).retireEl
  · exact acts.setEl _

end Acts

/-- The loop over the dirty list, element by element. -/
theorem foldl_releaseEl (list : List Nat) :
    (list.foldl releaseEl pool).maxRemaps = pool.maxRemaps ∧
      (list.foldl releaseEl pool).view index =
        if index ∈ list then (pool.view index).release else pool.view index := by
  induction list generalizing pool with
  | nil => simp
  | cons first rest ih =>
    have released := (@Acts.refl pool first).releaseEl
    obtain ⟨limit, view⟩ := ih (pool.releaseEl first)
    refine ⟨limit.trans released.limit, view.trans ?_⟩
    by_cases same : index = first
    · subst same
      by_cases again : index ∈ rest <;> simp [again, released.mine, ElView.release_release]
    · simp [same, released.others _ same]

/-- What the cache finds serves the request and is in a bucket. -/
theorem fmrCacheLookup_eq_some {request : MapRequest}
    (found : pool.fmrCacheLookup request = some index) :
    (pool.els index).serves request = true ∧ ∃ hash, 0 < (pool.view index).bucket hash := by
  obtain ⟨-, found⟩ := ite_none_right_eq_some.mp found
  constructor
  · exact find?_some (p := fun index => (pool.els index).serves request) found
  · exact ⟨_, count_pos_iff.mpr (mem_of_find?_eq_some found)⟩

end FmrPool

/-- The element a thread works on. -/
def MapPhase.index : MapPhase → Option Nat
  | .idle => none
  | .popped index _ | .refused index | .mapped index _ | .rested index _ => some index

/-- The elements that are detached from the pool. -/
def CleanupPhase.unmapList : CleanupPhase → List Nat
  | .waiting => []
  | .detached list | .unmapped list => list

/-- All that a pool and its users have on one element. -/
@[ext]
structure ElSeen where
  view : ElView
  detached : Nat
  calling : Nat → MapPhase
  grants : List FmrGrant

/-- The calls that work on an element. -/
def FmrSys.calling (sys : FmrSys) (index thread : Nat) : MapPhase :=
  if (sys.calls thread).index = some index then sys.calls thread else .idle

/-- What all parties have of an element. -/
def FmrSys.seen (sys : FmrSys) (index : Nat) : ElSeen where
  view := sys.pool.view index
  detached := sys.cleanup.unmapList.count index
  calling := sys.calling index
  grants := sys.grants.filter (·.index = index)

/-- Where an element is. -/
inductive Place
  | outside | free | dirty | rest | detached
  | called (thread : Nat) (phase : MapPhase)
deriving DecidableEq

namespace Place

def onFree : Place → Nat
  | .free => 1
  | _ => 0

def onDirty : Place → Nat
  | .dirty => 1
  | _ => 0

/-- A call has its element on the rest list before it is entered in the cache. -/
def onRest : Place → Nat
  | .rest | .called _ (.rested _ _) => 1
  | _ => 0

def onDetached : Place → Nat
  | .detached => 1
  | _ => 0

def calling : Place → Nat → MapPhase
  | .called thread phase => update (fun _ => .idle) thread phase
  | _ => fun _ => .idle

end Place

attribute [local simp] Place.onFree Place.onDirty Place.onRest Place.onDetached Place.calling

namespace FmrPoolEl

/-- The driver maps the element as a request asked, from the start of its page on. -/
def MappedTo (el : FmrPoolEl) (request : MapRequest) : Prop :=
  el.hFmr.mapping = some ⟨request.pages, el.ioVirtualAddress, el.lkey, el.rkey⟩ ∧
    el.ioVirtualAddress = pageStart request.vaddr

/-- What the cache compares with is what the driver maps. -/
def CacheRight (el : FmrPoolEl) : Prop :=
  el.hFmr.mapping =
      some ⟨el.pageList.take el.pageListLen, el.ioVirtualAddress, el.lkey, el.rkey⟩ ∧
    pageStart el.ioVirtualAddress = el.ioVirtualAddress

/-- A grant agrees with the driver. -/
def GrantRight (el : FmrPoolEl) (grant : FmrGrant) : Prop :=
  el.hFmr.mapping = some ⟨grant.request.pages, grant.vaddr, grant.lkey, grant.rkey⟩ ∧
    grant.vaddr = pageStart grant.request.vaddr

/-- Nobody holds the element. -/
def Unused (el : FmrPoolEl) (grants : List FmrGrant) : Prop :=
  el.refCount = 0 ∧ grants = []

end FmrPoolEl

/-- What the place of an element says about it. -/
def Place.Known (maxRemaps : Nat) (el : FmrPoolEl) (grants : List FmrGrant) : Place → Prop
  | .outside => el.Unused grants ∧ el.inCash = false
  | .free => el.Unused grants ∧ el.remapCount < maxRemaps ∧
      (el.inCash = true → el.pCurList = .free)
  | .dirty => el.Unused grants ∧ el.pCurList = .dirty
  | .rest => grants ≠ [] ∧ el.refCount = grants.length ∧ el.pCurList = .rest
  | .detached => el.Unused grants ∧ el.inCash = false ∧ el.remapCount < maxRemaps
  | .called _ .idle => False
  | .called _ (.popped _ _) | .called _ (.refused _) =>
      el.Unused grants ∧ el.inCash = false ∧ el.remapCount < maxRemaps
  | .called _ (.mapped _ request) =>
      el.refCount = 1 ∧ grants = [] ∧ el.inCash = false ∧ el.MappedTo request
  | .called _ (.rested _ request) =>
      el.refCount = 1 ∧ grants = [] ∧ el.inCash = false ∧ el.MappedTo request ∧
        el.pCurList = .rest

/-- Everything known about an element at a place. -/
structure ElSeen.At (maxRemaps : Nat) (seen : ElSeen) (place : Place) : Prop where
  free : seen.view.free = place.onFree
  dirty : seen.view.dirty = place.onDirty
  rest : seen.view.rest = place.onRest
  detached : seen.detached = place.onDetached
  calling : seen.calling = place.calling
  bucket : seen.view.Indexed
  known : place.Known maxRemaps seen.view.el seen.grants
  remaps : seen.view.el.remapCount ≤ maxRemaps
  maps : seen.view.el.hFmr.maps ≤ maxRemaps
  cached : seen.view.el.inCash = true → seen.view.el.CacheRight
  granted : ∀ grant ∈ seen.grants, seen.view.el.GrantRight grant

namespace ElSeen.At
variable {maxRemaps : Nat} {seen : ElSeen} {place : Place}

section
variable (at_ : seen.At maxRemaps place)
include at_

/-- An element the cache knows is on a list, and its map is the one the cache shows. -/
theorem place_of_inCash (cached : seen.view.el.inCash = true) :
    place = .free ∨ place = .dirty ∨ place = .rest := by
  have known := at_.known
  rcases place with _ | _ | _ | _ | _ | ⟨thread, _ | _ | _ | _ | _⟩ <;> simp_all [Place.Known]

theorem inCash_of_bucket_pos {hash : UInt32} (there : 0 < seen.view.bucket hash) :
    seen.view.el.inCash = true := by
  rw [at_.bucket hash] at there
  by_contra out
  simp [out] at there

theorem place_of_free_pos (there : 0 < seen.view.free) : place = .free := by
  rw [at_.free] at there
  cases place <;> simp_all

theorem place_of_dirty_pos (there : 0 < seen.view.dirty) : place = .dirty := by
  rw [at_.dirty] at there
  cases place <;> simp_all

theorem place_of_detached_pos (there : 0 < seen.detached) : place = .detached := by
  rw [at_.detached] at there
  cases place <;> simp_all

theorem place_of_grants (held : seen.grants ≠ []) : place = .rest := by
  have known := at_.known
  rcases place with _ | _ | _ | _ | _ | ⟨thread, _ | _ | _ | _ | _⟩ <;>
    simp_all [Place.Known, FmrPoolEl.Unused]

end

variable {thread index : Nat} {request : MapRequest}

section
variable (at_ : seen.At maxRemaps place)
include at_

theorem place_of_calling (busy : seen.calling thread ≠ .idle) :
    place = .called thread (seen.calling thread) := by
  rw [at_.calling] at busy ⊢
  cases place with
  | called other phase =>
    by_cases same : thread = other
    · subst same
      simp
    · simp [same] at busy
  | _ => simp at busy

/-- What the cache finds for a request is mapped as the request asks. -/
theorem mappedTo_of_serves (cached : seen.view.el.inCash = true)
    (serves : seen.view.el.serves request = true) : seen.view.el.MappedTo request := by
  obtain ⟨mapping, aligned⟩ := at_.cached cached
  simp only [FmrPoolEl.serves, Bool.and_eq_true, beq_iff_eq] at serves
  obtain ⟨⟨sameStart, sameLength⟩, samePages⟩ := serves
  constructor
  · rw [mapping, ← sameLength, ← samePages]
  · rw [sameStart, aligned]

/-- What does not depend on who holds an element or which list it is on. -/
theorem relist {after : ElSeen} {next : Place} {refCount : Int} {pCurList : CurList}
    (el : after.view.el = { seen.view.el with refCount, pCurList })
    (bucket : after.view.bucket = seen.view.bucket)
    (lists : after.view.free = next.onFree ∧ after.view.dirty = next.onDirty ∧ after.view.rest = next.onRest)
    (detached : after.detached = next.onDetached) (calling : after.calling = next.calling)
    (known : next.Known maxRemaps after.view.el after.grants)
    (granted : ∀ grant ∈ after.grants, seen.view.el.GrantRight grant) :
    after.At maxRemaps next where
  free := lists.1
  dirty := lists.2.1
  rest := lists.2.2
  detached := detached
  calling := calling
  bucket := by
    intro hash
    rw [bucket, el]
    exact at_.bucket hash
  known := known
  remaps := by
    rw [el]
    exact at_.remaps
  maps := by
    rw [el]
    exact at_.maps
  cached := by
    rw [el]
    exact at_.cached
  granted := by
    rw [el]
    exact granted

/-- A cached element is handed out once more. -/
theorem revive (cached : seen.view.el.inCash = true) {grant : FmrGrant}
    (right : seen.view.el.GrantRight grant) : ElSeen.At maxRemaps
      { seen with view := seen.view.revive, grants := grant :: seen.grants } .rest := by
  have known := at_.known
  have free := at_.free
  have dirty := at_.dirty
  have rest := at_.rest
  have granted : ∀ other ∈ grant :: seen.grants, seen.view.el.GrantRight other :=
    forall_mem_cons.mpr ⟨right, at_.granted⟩
  rcases at_.place_of_inCash cached with rfl | rfl | rfl
  · -- off the free list
    obtain ⟨⟨unused, noGrant⟩, -, onFree⟩ := known
    have view : seen.view.revive =
        { seen.view with el := { seen.view.el with refCount := 1, pCurList := .rest },
                         free := seen.view.free - 1, rest := seen.view.rest + 1 } := by
      simp [ElView.revive, ElView.unlink, ElView.insertTail, unused, onFree cached]
    rw [view]
    refine at_.relist rfl rfl ?_ at_.detached at_.calling ?_ granted
    · simp [free, dirty, rest]
    · simp [Place.Known, noGrant]
  · -- off the dirty list
    obtain ⟨⟨unused, noGrant⟩, onDirty⟩ := known
    have view : seen.view.revive =
        { seen.view with el := { seen.view.el with refCount := 1, pCurList := .rest },
                         dirty := seen.view.dirty - 1, rest := seen.view.rest + 1 } := by
      simp [ElView.revive, ElView.unlink, ElView.insertTail, unused, onDirty]
    rw [view]
    refine at_.relist rfl rfl ?_ at_.detached at_.calling ?_ granted
    · simp [free, dirty, rest]
    · simp [Place.Known, noGrant]
  · -- in use already
    obtain ⟨held, counted, onRest⟩ := known
    have used : seen.view.el.refCount + 1 ≠ 1 := by
      have := length_pos_of_ne_nil held
      omega
    have view : seen.view.revive =
        { seen.view with el := { seen.view.el with
            refCount := seen.view.el.refCount + 1, pCurList := seen.view.el.pCurList } } := by
      simp only [ElView.revive, used, if_false]
    rw [view]
    refine at_.relist rfl rfl ⟨free, dirty, rest⟩ at_.detached at_.calling ?_ granted
    simp [Place.Known, counted, onRest]

theorem bucket_of_out (out : seen.view.el.inCash = false) (hash : UInt32) : seen.view.bucket hash = 0 := by
  simp [at_.bucket hash, out]

end

/-- An element that is not in the cache and that nobody was granted. -/
theorem unheld (out : seen.view.el.inCash = false) (bucket : ∀ hash, seen.view.bucket hash = 0)
    (lists : seen.view.free = place.onFree ∧ seen.view.dirty = place.onDirty ∧
      seen.view.rest = place.onRest) (detached : seen.detached = place.onDetached)
    (calling : seen.calling = place.calling) (known : place.Known maxRemaps seen.view.el seen.grants)
    (remaps : seen.view.el.remapCount ≤ maxRemaps) (maps : seen.view.el.hFmr.maps ≤ maxRemaps)
    (unused : seen.grants = []) : seen.At maxRemaps place where
  free := lists.1
  dirty := lists.2.1
  rest := lists.2.2
  detached := detached
  calling := calling
  bucket hash := by simp [bucket, out]
  known := known
  remaps := remaps
  maps := maps
  cached := by simp [out]
  granted := by simp [unused]

/-- An element is taken off the free list for the driver. -/
theorem take (at_ : seen.At maxRemaps .free) (thread index : Nat) (request : MapRequest) :
    ElSeen.At maxRemaps
      { seen with view := ElView.dropCached { seen.view with free := seen.view.free - 1 },
                  calling := update seen.calling thread (.popped index request) }
      (.called thread (.popped index request)) := by
  obtain ⟨unused, room, -⟩ := at_.known
  rw [@ElView.dropCached_eq { seen.view with free := seen.view.free - 1 } at_.bucket]
  refine unheld rfl (fun _ => rfl) ?_ at_.detached ?_ ⟨unused, rfl, room⟩ at_.remaps at_.maps unused.2
  · simp [at_.free, at_.dirty, at_.rest]
  · simp [at_.calling]

/-- A dirty element is detached for the driver to unmap. -/
theorem detach (at_ : seen.At maxRemaps .dirty) (positive : 0 < maxRemaps) :
    ElSeen.At maxRemaps { seen with view := { seen.view.release with dirty := 0 }, detached := 1 }
      .detached := by
  obtain ⟨unused, -⟩ := at_.known
  rw [ElView.release, ElView.dropCached_eq at_.bucket]
  refine unheld rfl (fun _ => rfl) ?_ rfl at_.calling ⟨unused, rfl, positive⟩ (Nat.zero_le _)
    at_.maps unused.2
  simp [at_.free, at_.rest]

/-- The driver maps the element as asked. -/
theorem driverMap (at_ : seen.At maxRemaps (.called thread (.popped index request)))
    (room : seen.view.el.hFmr.maps < maxRemaps) (lkey rkey : UInt32) :
    ElSeen.At maxRemaps
      { seen with
        view := { seen.view with el := { seen.view.el with
          hFmr := ⟨seen.view.el.hFmr.maps + 1, some ⟨request.pages, pageStart request.vaddr, lkey, rkey⟩⟩,
          remapCount := seen.view.el.remapCount + 1, refCount := 1, lkey, rkey,
          ioVirtualAddress := pageStart request.vaddr } },
        calling := update seen.calling thread (.mapped index request) }
      (.called thread (.mapped index request)) := by
  obtain ⟨unused, out, fewer⟩ := at_.known
  refine unheld out (at_.bucket_of_out out) ⟨at_.free, at_.dirty, at_.rest⟩ at_.detached ?_
    ⟨rfl, unused.2, out, rfl, rfl⟩ fewer room unused.2
  simp [at_.calling]

/-- The driver does not map the element. -/
theorem refuse {index : Nat}
    (at_ : seen.At maxRemaps (.called thread (.popped index request))) :
    ElSeen.At maxRemaps
      { seen with calling := update seen.calling thread (.refused index) }
      (.called thread (.refused index)) := by
  refine at_.relist rfl rfl ⟨at_.free, at_.dirty, at_.rest⟩ at_.detached ?_ at_.known at_.granted
  simp [at_.calling]

/-- An element the driver did not map goes back to the free list. -/
theorem putBack (at_ : seen.At maxRemaps (.called thread (.refused index))) :
    ElSeen.At maxRemaps
      { seen with view := seen.view.insertTail .free,
                  calling := update seen.calling thread .idle } .free := by
  obtain ⟨unused, out, fewer⟩ := at_.known
  refine at_.relist rfl rfl ?_ at_.detached ?_ ⟨unused, fewer, fun _ => rfl⟩ at_.granted
  · simp [ElView.insertTail, at_.free, at_.dirty, at_.rest]
  · simp [at_.calling]

/-- A mapped element joins the rest list. -/
theorem join (at_ : seen.At maxRemaps (.called thread (.mapped index request))) :
    ElSeen.At maxRemaps
      { seen with view := seen.view.insertTail .rest,
                  calling := update seen.calling thread (.rested index request) }
      (.called thread (.rested index request)) := by
  obtain ⟨held, noGrant, out, mapped⟩ := at_.known
  refine at_.relist rfl rfl ?_ at_.detached ?_ ⟨held, noGrant, out, mapped, rfl⟩ at_.granted
  · simp [ElView.insertTail, at_.free, at_.dirty, at_.rest]
  · simp [at_.calling]

/-- A call ends with the element on the rest list. -/
theorem finish {index : Nat}
    (at_ : seen.At maxRemaps (.called thread (.rested index request))) {grant : FmrGrant}
    (right : seen.view.el.GrantRight grant) :
    ElSeen.At maxRemaps
      { seen with calling := update seen.calling thread .idle, grants := grant :: seen.grants } .rest := by
  obtain ⟨held, noGrant, -, -, onRest⟩ := at_.known
  refine at_.relist rfl rfl ⟨at_.free, at_.dirty, at_.rest⟩ at_.detached ?_ ?_ ?_
  · simp [at_.calling]
  · simp [Place.Known, held, noGrant, onRest]
  · simpa [noGrant] using right

/-- A call ends after it entered its element in the cache. -/
theorem enter (at_ : seen.At maxRemaps (.called thread (.rested index request))) :
    ElSeen.At maxRemaps
      { seen with
        view := seen.view.enter request,
        calling := update seen.calling thread .idle,
        grants := seen.view.el.grantFor index request :: seen.grants } .rest := by
  obtain ⟨held, noGrant, out, mapped, onRest⟩ := at_.known
  exact {
    free := at_.free
    dirty := at_.dirty
    rest := at_.rest
    detached := at_.detached
    calling := by simp [at_.calling]
    bucket := by
      intro hash
      simp [ElView.enter, update_apply, at_.bucket_of_out out]
    known := by simp [Place.Known, held, noGrant, onRest, ElView.enter]
    remaps := at_.remaps
    maps := at_.maps
    cached := by
      intro _
      constructor
      · simpa [ElView.enter] using mapped.1
      · simp [ElView.enter, mapped.2]
    granted := by
      simp only [noGrant, mem_singleton, forall_eq]
      exact mapped }

/-- A caller gives an element back. -/
theorem giveBack (at_ : seen.At maxRemaps .rest) {grant : FmrGrant} (held : grant ∈ seen.grants) :
    ∃ place, ElSeen.At maxRemaps
      { seen with view := seen.view.unmap maxRemaps, grants := seen.grants.erase grant } place := by
  obtain ⟨-, counted, onRest⟩ := at_.known
  have granted : ∀ other ∈ seen.grants.erase grant, seen.view.el.GrantRight other := by
    intro other among
    exact at_.granted other (mem_of_mem_erase among)
  have length := length_erase_of_mem held
  have positive := length_pos_of_mem held
  by_cases last : seen.view.el.refCount - 1 = 0
  · have noGrant : seen.grants.erase grant = [] := by
      apply eq_nil_of_length_eq_zero
      omega
    by_cases room : seen.view.el.remapCount < maxRemaps
    · refine ⟨.free, ?_⟩
      have view : seen.view.unmap maxRemaps =
          { seen.view with el := { seen.view.el with refCount := 0, pCurList := .free },
                           rest := seen.view.rest - 1, free := seen.view.free + 1 } := by
        simp [ElView.unmap, ElView.retire, ElView.unlink, ElView.insertTail, last, onRest, room]
      rw [view]
      refine at_.relist rfl rfl ?_ at_.detached at_.calling ?_ granted
      · simp [at_.free, at_.dirty, at_.rest]
      · simp [Place.Known, FmrPoolEl.Unused, noGrant, room]
    · refine ⟨.dirty, ?_⟩
      have view : seen.view.unmap maxRemaps =
          { seen.view with el := { seen.view.el with refCount := 0, pCurList := .dirty },
                           rest := seen.view.rest - 1, dirty := seen.view.dirty + 1 } := by
        simp [ElView.unmap, ElView.retire, ElView.unlink, ElView.insertTail, last, onRest, room]
      rw [view]
      refine at_.relist rfl rfl ?_ at_.detached at_.calling ?_ granted
      · simp [at_.free, at_.dirty, at_.rest]
      · simp [Place.Known, FmrPoolEl.Unused, noGrant]
  · refine ⟨.rest, ?_⟩
    have view : seen.view.unmap maxRemaps =
        { seen.view with el := { seen.view.el with
            refCount := seen.view.el.refCount - 1, pCurList := .rest } } := by
      simp [ElView.unmap, last, ← onRest]
    rw [view]
    refine at_.relist rfl rfl ⟨at_.free, at_.dirty, at_.rest⟩ at_.detached at_.calling ?_ granted
    have others : seen.grants.erase grant ≠ [] := by
      apply ne_nil_of_length_pos
      omega
    refine ⟨others, ?_, rfl⟩
    simp only
    omega

/-- The driver unmaps a detached element. -/
theorem driverUnmap (at_ : seen.At maxRemaps .detached) :
    ElSeen.At maxRemaps
      { seen with view := { seen.view with el := { seen.view.el with
          hFmr := seen.view.el.hFmr.unmap } } } .detached := by
  obtain ⟨unused, out, fewer⟩ := at_.known
  exact unheld out (at_.bucket_of_out out) ⟨at_.free, at_.dirty, at_.rest⟩ at_.detached at_.calling
    ⟨unused, out, fewer⟩ at_.remaps (Nat.le_trans seen.view.el.hFmr.maps_unmap_le at_.maps) unused.2

/-- A detached element returns to the free list. -/
theorem attach (at_ : seen.At maxRemaps .detached) :
    ElSeen.At maxRemaps
      { seen with view := { seen.view with free := 1 + seen.view.free }, detached := 0 } .free := by
  obtain ⟨unused, out, fewer⟩ := at_.known
  refine at_.relist rfl rfl ?_ rfl at_.calling ⟨unused, fewer, ?_⟩ at_.granted
  · simp [at_.free, at_.dirty, at_.rest]
  · simp [out]

end ElSeen.At

/-- Every element has its place. -/
def FmrSys.Placed (sys : FmrSys) : Prop :=
  0 < sys.pool.maxRemaps ∧ ∀ index, ∃ place, (sys.seen index).At sys.pool.maxRemaps place

namespace FmrSys
variable {sys after : FmrSys} {thread index other : Nat}

theorem seen_setCall (phase : MapPhase) :
    (sys.setCall thread phase).seen index =
      { sys.seen index with
        calling := update (sys.seen index).calling thread
          (if phase.index = some index then phase else .idle) } := by
  ext1
  · rfl
  · rfl
  · funext caller
    by_cases same : caller = thread
    · subst same
      simp [seen, calling, setCall]
    · simp [seen, calling, setCall, same]
  · rfl

variable {phase : MapPhase} {pool : FmrPool} {request : MapRequest}

theorem seen_setCall_self (stays : phase = .idle ∨ phase.index = some index) :
    (sys.setCall thread phase).seen index =
      { sys.seen index with
        calling := update (sys.seen index).calling thread phase } := by
  rw [seen_setCall]
  rcases stays with rfl | stays
  · simp [MapPhase.index]
  · simp [stays]

theorem seen_setCall_of_ne (before : (sys.calls thread).index ≠ some index)
    (new : phase.index ≠ some index) : (sys.setCall thread phase).seen index = sys.seen index := by
  have idle : (sys.seen index).calling thread = .idle := if_neg before
  rw [seen_setCall, if_neg new, ← idle, update_eq_self]

theorem seen_grant (request : MapRequest) :
    (sys.grant index request).seen index =
      { sys.seen index with
        grants := (sys.pool.els index).grantFor index request :: (sys.seen index).grants } := by
  simp [seen, grant, FmrPoolEl.grantFor]
  rfl

theorem seen_grant_of_ne (ne : other ≠ index) (request : MapRequest) :
    (sys.grant index request).seen other = sys.seen other := by
  simp [seen, grant, ne.symm]
  rfl

/-- A step that may touch every element. -/
theorem Placed.sweep (placed : sys.Placed) (limit : after.pool.maxRemaps = sys.pool.maxRemaps)
    (moved : ∀ index place, (sys.seen index).At sys.pool.maxRemaps place →
      ∃ next, (after.seen index).At sys.pool.maxRemaps next) : after.Placed := by
  obtain ⟨positive, places⟩ := placed
  rw [Placed, limit]
  refine ⟨positive, fun index => ?_⟩
  obtain ⟨place, at_⟩ := places index
  exact moved index place at_

/-- A step that touches one element needs to be looked at for that element only. -/
theorem Placed.move (placed : sys.Placed) (touches : sys.pool.Touches index after.pool)
    (others : ∀ other, other ≠ index → after.pool.view other = sys.pool.view other →
      after.seen other = sys.seen other)
    (moved : ∀ place, (sys.seen index).At sys.pool.maxRemaps place →
      ∃ next, (after.seen index).At sys.pool.maxRemaps next) : after.Placed := by
  refine placed.sweep touches.limit fun other place at_ => ?_
  by_cases same : other = index
  · subst same
    exact moved place at_
  · rw [others other same (touches.others other same)]
    exact ⟨place, at_⟩

/-- A change to the pool alone, as seen at an element. -/
theorem seen_pool {view : ElView} (same : pool.view index = view) :
    FmrSys.seen { sys with pool } index = { sys.seen index with view } :=
  ElSeen.ext same rfl rfl rfl

theorem seen_pool_of_eq (same : pool.view index = sys.pool.view index) :
    FmrSys.seen { sys with pool } index = sys.seen index :=
  ElSeen.ext same rfl rfl rfl

/-- A change to the pool and the detached list. -/
theorem seen_swept {view : ElView} {cleanup : CleanupPhase} {detached : Nat}
    (same : pool.view index = view) (counted : cleanup.unmapList.count index = detached) :
    FmrSys.seen { sys with pool, cleanup } index = { sys.seen index with view, detached } :=
  ElSeen.ext same counted rfl rfl

/-- A call finds its pages in the cache. -/
theorem Placed.found (placed : sys.Placed) (found : sys.pool.fmrCacheLookup request = some index) :
    (FmrSys.grant { sys with pool := sys.pool.reviveEl index } index request).Placed := by
  obtain ⟨serves, hash, there⟩ := sys.pool.fmrCacheLookup_eq_some found
  have acts := (@FmrPool.Acts.refl sys.pool index).reviveEl
  refine @Placed.move sys _ index placed acts.toTouches ?_ ?_
  · intro other ne same
    rw [seen_grant_of_ne ne]
    exact seen_pool_of_eq same
  · intro place at_
    have cached := at_.inCash_of_bucket_pos there
    refine ⟨.rest, ?_⟩
    rw [seen_grant, seen_pool acts.mine, acts.el_eq, ElView.grantFor_revive]
    apply at_.revive cached
    exact at_.mappedTo_of_serves cached serves

/-- A call takes an element off the free list. -/
theorem Placed.taken (placed : sys.Placed) (idle : sys.calls thread = .idle)
    (request : MapRequest) {rest : List Nat} (free : sys.pool.freeList = index :: rest) :
    (FmrSys.setCall { sys with pool := FmrPool.dropCached { sys.pool with freeList := rest } index }
      thread (.popped index request)).Placed := by
  have popped : sys.pool.Acts index
      { sys.pool.view index with free := (sys.pool.view index).free - 1 }
      { sys.pool with freeList := rest } :=
    ⟨⟨rfl, fun other ne => by simp [FmrPool.view, free, ne.symm]⟩, by simp [FmrPool.view, free]⟩
  refine @Placed.move sys _ index placed popped.dropCached.toTouches ?_ ?_
  · intro other ne same
    rw [seen_setCall_of_ne (by simp [idle, MapPhase.index]) (by simp [MapPhase.index, ne.symm])]
    exact seen_pool_of_eq same
  · intro place at_
    have counted : (sys.seen index).view.free = rest.count index + 1 := by
      simp [seen, FmrPool.view, free]
    obtain rfl := at_.place_of_free_pos (counted ▸ Nat.succ_pos _)
    refine ⟨.called thread (.popped index request), ?_⟩
    rw [seen_setCall_self (.inr rfl), seen_pool popped.dropCached.mine]
    exact at_.take thread index request

theorem Placed.mapCall (placed : sys.Placed) (idle : sys.calls thread = .idle)
    (request : MapRequest) : (sys.mapCall thread request).Placed := by
  unfold FmrSys.mapCall FmrPool.mapStart
  by_cases invalid : request.pages.length < 1 ∨ request.pages.length > sys.pool.maxPages
  · simpa only [invalid, if_true] using placed
  · simp only [invalid, if_false]
    cases hit : sys.pool.fmrCacheLookup request with
    | some index => exact placed.found hit
    | none =>
      cases free : sys.pool.freeList with
      | nil => exact placed
      | cons index rest => exact placed.taken idle request free

/-- A thread's call tells where its element is. -/
theorem place_eq_called {place : Place} {maxRemaps : Nat} (busy : sys.calls thread = phase)
    (works : phase.index = some index) (at_ : (sys.seen index).At maxRemaps place) :
    place = .called thread phase := by
  have calling : (sys.seen index).calling thread = phase := (if_pos (busy ▸ works)).trans busy
  have notIdle : phase ≠ .idle := by
    rintro rfl
    contradiction
  rw [← calling]
  apply at_.place_of_calling
  rw [calling]
  exact notIdle

/-- A thread's step does not show at the elements that its call does not work on. -/
theorem seen_call_of_ne {before : MapPhase} (busy : sys.calls thread = before)
    (works : before.index = some index) (stays : phase = .idle ∨ phase.index = some index)
    (ne : other ≠ index) (same : pool.view other = sys.pool.view other) :
    (FmrSys.setCall { sys with pool } thread phase).seen other = sys.seen other := by
  have apart : before.index ≠ some other := by simp [works, ne.symm]
  have leaves : phase.index ≠ some other := by
    rcases stays with rfl | stays
    · simp [MapPhase.index]
    · simp [stays, ne.symm]
  rw [seen_setCall_of_ne (busy ▸ apart) leaves]
  exact seen_pool_of_eq same

section
variable (placed : sys.Placed) {view : ElView} {spot : Place}
include placed

/-- A thread's step moves the element its call works on. -/
theorem Placed.callStep {before : MapPhase} (busy : sys.calls thread = before)
    (works : before.index = some index) (stays : phase = .idle ∨ phase.index = some index)
    (acts : sys.pool.Acts index view pool)
    (moved : (sys.seen index).At sys.pool.maxRemaps (.called thread before) →
      ElSeen.At sys.pool.maxRemaps { sys.seen index with
        view, calling := update (sys.seen index).calling thread phase } spot) :
    (FmrSys.setCall { sys with pool } thread phase).Placed := by
  refine placed.move acts.toTouches ?_ ?_
  · intro other ne same
    exact seen_call_of_ne busy works stays ne same
  · intro place at_
    obtain rfl := place_eq_called busy works at_
    rw [seen_setCall_self stays, seen_pool acts.mine]
    exact ⟨spot, moved at_⟩

/-- A call is over when its element is on the rest list, and in the cache if there is one. -/
theorem Placed.callEnd (waits : sys.calls thread = .rested index request)
    (acts : sys.pool.Acts index view pool)
    (moved : (sys.seen index).At sys.pool.maxRemaps (.called thread (.rested index request)) →
      ElSeen.At sys.pool.maxRemaps { sys.seen index with
        view, calling := update (sys.seen index).calling thread .idle
        grants := view.el.grantFor index request :: (sys.seen index).grants } spot) :
    ((FmrSys.setCall { sys with pool } thread .idle).grant index request).Placed := by
  refine placed.move acts.toTouches ?_ ?_
  · intro other ne same
    rw [seen_grant_of_ne ne]
    exact seen_call_of_ne waits rfl (.inl rfl) ne same
  · intro place at_
    obtain rfl := place_eq_called waits rfl at_
    rw [seen_grant, seen_setCall_self (.inl rfl), seen_pool acts.mine]
    simp only [setCall, acts.el_eq]
    exact ⟨spot, moved at_⟩

/-- The driver's answer to a map. -/
theorem Placed.driverAnswer (waits : sys.calls thread = .popped index request)
    (keys : Option (UInt32 × UInt32)) : (sys.driverAnswer thread index request keys).Placed := by
  unfold FmrSys.driverAnswer FmrPool.driverMap
  rcases keys with _ | ⟨lkey, rkey⟩
  · exact placed.callStep waits rfl (.inr rfl) (.refl _) (·.refuse)
  · by_cases room : (sys.pool.els index).hFmr.maps < sys.pool.maxRemaps
    · simp only [Fmr.mapPhys, Nat.not_le.mpr room, if_false]
      exact placed.callStep waits rfl (.inr rfl) ((FmrPool.Acts.refl _).setEl _)
        (·.driverMap room lkey rkey)
    · simp only [Fmr.mapPhys, Nat.not_lt.mp room, if_true]
      exact placed.callStep waits rfl (.inr rfl) (.refl _) (·.refuse)

/-- An element that was not mapped goes back to the free list. -/
theorem Placed.putBack (waits : sys.calls thread = .refused index) :
    (FmrSys.setCall { sys with pool := sys.pool.insertTail index .free } thread .idle).Placed := by
  exact placed.callStep waits rfl (.inl rfl) ((FmrPool.Acts.refl _).insertTail _) (·.putBack)

/-- A mapped element joins the rest list and waits for the cache. -/
theorem Placed.join (waits : sys.calls thread = .mapped index request) :
    (FmrSys.setCall { sys with pool := sys.pool.insertTail index .rest } thread
      (.rested index request)).Placed := by
  exact placed.callStep waits rfl (.inr rfl) ((FmrPool.Acts.refl _).insertTail _) (·.join)

/-- A call that uses no cache is over when its element is on the rest list. -/
theorem Placed.finish {request : MapRequest} (waits : sys.calls thread = .rested index request) :
    ((sys.setCall thread .idle).grant index request).Placed := by
  refine placed.callEnd waits (.refl _) fun at_ => at_.finish ?_
  obtain ⟨-, -, -, mapped, -⟩ := at_.known
  exact mapped

theorem Placed.restEl (waits : sys.calls thread = .mapped index request) :
    (sys.restEl thread index request).Placed := by
  have joined := placed.join waits
  unfold FmrSys.restEl
  simp only
  split
  · exact joined
  · have finished := @Placed.finish _ thread index joined request (by simp [setCall])
    simpa [setCall] using finished

/-- A call enters its element in the cache and is over. -/
theorem Placed.enter (waits : sys.calls thread = .rested index request) :
    ((FmrSys.setCall { sys with pool := sys.pool.cacheEl index request } thread .idle).grant index
      request).Placed := by
  exact placed.callEnd waits ((FmrPool.Acts.refl _).cacheEl request) (·.enter)

/-- A caller gives back what it was granted. -/
theorem Placed.unmap {grant : FmrGrant} (held : grant ∈ sys.grants) : FmrSys.Placed
      { sys with pool := sys.pool.unmapEl grant.index, grants := sys.grants.erase grant } := by
  have acts := (@FmrPool.Acts.refl sys.pool grant.index).unmapEl
  refine @Placed.move sys _ grant.index placed acts.toTouches ?_ ?_
  · intro other ne same
    refine ElSeen.ext same rfl rfl ?_
    have apart : grant ∉ sys.grants.filter (·.index = other) := by simp [ne.symm]
    exact erase_filter.symm.trans (erase_of_not_mem apart)
  · intro place at_
    have mine : grant ∈ (sys.seen grant.index).grants := by simp [seen, held]
    obtain rfl := at_.place_of_grants (ne_nil_of_mem mine)
    have view : FmrSys.seen
        { sys with pool := sys.pool.unmapEl grant.index, grants := sys.grants.erase grant }
        grant.index =
        { sys.seen grant.index with
          view := (sys.seen grant.index).view.unmap sys.pool.maxRemaps,
          grants := (sys.seen grant.index).grants.erase grant } := by
      exact ElSeen.ext acts.mine rfl rfl erase_filter.symm
    rw [view]
    exact at_.giveBack mine

/-- The cleanup thread detaches the dirty list. -/
theorem Placed.detach (waiting : sys.cleanup = .waiting) :
    FmrSys.Placed { sys with pool := sys.pool.detachDirty, cleanup := .detached sys.pool.dirtyList } := by
  have released (index : Nat) := @FmrPool.foldl_releaseEl sys.pool index sys.pool.dirtyList
  refine placed.sweep (released 0).1 fun index place at_ => ?_
  have counted : (sys.seen index).view.dirty = sys.pool.dirtyList.count index := rfl
  have view := (released index).2
  by_cases dirty : index ∈ sys.pool.dirtyList
  · obtain rfl := at_.place_of_dirty_pos (counted ▸ count_pos_iff.mpr dirty)
    rw [if_pos dirty] at view
    have detached : sys.pool.detachDirty.view index =
        { (sys.seen index).view.release with dirty := 0 } :=
      congrArg (fun view => { view with dirty := 0 }) view
    have once : sys.pool.dirtyList.count index = 1 := at_.dirty
    rw [seen_swept detached (by exact once)]
    exact ⟨.detached, at_.detach placed.1⟩
  · rw [if_neg dirty] at view
    have never : sys.pool.dirtyList.count index = 0 := count_eq_zero.mpr dirty
    have kept : sys.pool.detachDirty.view index = sys.pool.view index := by
      refine (congrArg (fun view => { view with dirty := 0 }) view).trans ?_
      simp [FmrPool.view, never]
    have none : (sys.seen index).detached = 0 := by
      simp [FmrSys.seen, CleanupPhase.unmapList, waiting]
    rw [seen_swept kept (by exact never.trans none.symm)]
    exact ⟨place, at_⟩

/-- The driver's answer to the cleanup thread. -/
theorem Placed.driverUnmap {unmapList : List Nat} (waits : sys.cleanup = .detached unmapList)
    (done : Bool) :
    FmrSys.Placed { sys with pool := if done then sys.pool.driverUnmap unmapList else sys.pool,
                             cleanup := .unmapped unmapList } := by
  have detached (index : Nat) : (sys.seen index).detached = unmapList.count index := by
    simp [seen, waits, CleanupPhase.unmapList]
  refine placed.sweep (by split <;> rfl) fun index place at_ => ?_
  by_cases there : done = true ∧ index ∈ unmapList
  · obtain rfl := at_.place_of_detached_pos (detached index ▸ count_pos_iff.mpr there.2)
    refine ⟨.detached, ?_⟩
    have view : (if done then sys.pool.driverUnmap unmapList else sys.pool).view index =
        { sys.pool.view index with
          el := { (sys.pool.view index).el with hFmr := (sys.pool.els index).hFmr.unmap } } := by
      simp [FmrPool.view, FmrPool.driverUnmap, there]
    rw [seen_swept (by exact view) (detached index).symm]
    exact at_.driverUnmap
  · refine ⟨place, ?_⟩
    have view : (if done then sys.pool.driverUnmap unmapList else sys.pool).view index =
        sys.pool.view index := by
      split
      · simp_all [FmrPool.view, FmrPool.driverUnmap]
      · rfl
    rw [seen_swept (by exact view) (detached index).symm]
    exact at_

/-- The detached elements return to the free list. -/
theorem Placed.cleanupEnd {unmapList : List Nat} (waits : sys.cleanup.unmapList = unmapList) :
    (sys.cleanupEnd unmapList).Placed := by
  have detached (index : Nat) : (sys.seen index).detached = unmapList.count index := by
    simp [seen, waits]
  refine placed.sweep rfl ?_
  intro index place at_
  have view : (sys.cleanupEnd unmapList).pool.view index =
      { sys.pool.view index with
        free := unmapList.count index + (sys.pool.view index).free } := by
    simp [FmrSys.cleanupEnd, FmrPool.attachFree, FmrPool.view]
  rw [show (sys.cleanupEnd unmapList).seen index = _ from seen_swept view (count_nil ..)]
  by_cases there : index ∈ unmapList
  · obtain rfl := at_.place_of_detached_pos (detached index ▸ count_pos_iff.mpr there)
    have once : unmapList.count index = 1 := (detached index).symm.trans at_.detached
    rw [once]
    exact ⟨.free, at_.attach⟩
  · have never : unmapList.count index = 0 := count_eq_zero.mpr there
    have none : (sys.seen index).detached = 0 := (detached index).trans never
    rw [never, Nat.zero_add, ← none]
    exact ⟨place, at_⟩

theorem Placed.cleanupRound (waiting : sys.cleanup = .waiting) : sys.cleanupRound.Placed := by
  have detached := placed.detach waiting
  unfold FmrSys.cleanupRound
  simp only
  split
  · split
    next empty =>
      rw [empty] at detached
      exact detached.cleanupEnd rfl
    next => exact detached
  · exact placed

/-- Every lawful step keeps every element in a place. -/
theorem Placed.next {event : FmrEvent} (lawful : LawfulFmr sys event)
    (step : sys.next event = some after) : after.Placed := by
  cases event with
  | map thread request =>
    simp only [FmrSys.next] at step
    split at step
    next idle => exact some.inj step ▸ placed.mapCall idle request
    next => contradiction
  | driverMap thread keys =>
    simp only [FmrSys.next] at step
    split at step
    next index request waits => exact some.inj step ▸ placed.driverAnswer waits keys
    next => contradiction
  | proceed thread =>
    simp only [FmrSys.next] at step
    split at step
    next index waits => exact some.inj step ▸ placed.putBack waits
    next index request waits => exact some.inj step ▸ placed.restEl waits
    next index request waits => exact some.inj step ▸ placed.enter waits
    next => contradiction
  | unmap grant => exact some.inj step ▸ placed.unmap lawful
  | flush => exact some.inj step ▸ placed
  | cleanup =>
    simp only [FmrSys.next] at step
    split at step
    next waiting => exact some.inj step ▸ placed.cleanupRound waiting
    next => contradiction
  | driverUnmap done =>
    simp only [FmrSys.next] at step
    split at step
    next unmapList waits => exact some.inj step ▸ placed.driverUnmap waits done
    next => contradiction
  | cleanupDone =>
    simp only [FmrSys.next] at step
    split at step
    next unmapList waits =>
      have list : sys.cleanup.unmapList = unmapList := by rw [waits, CleanupPhase.unmapList]
      exact some.inj step ▸ placed.cleanupEnd list
    next => contradiction

end

/-- A new pool has its elements on the free list. -/
theorem placed_initial (attr : FmrPoolCreate) (maxMapPerFmr : Nat) :
    (initial attr maxMapPerFmr).Placed := by
  have positive : 0 < (createFmrPool attr maxMapPerFmr).maxRemaps := by
    simp only [createFmrPool]
    split <;> omega
  refine ⟨positive, ?_⟩
  intro index
  have unused : (createFmrPool attr maxMapPerFmr |>.els index).Unused [] := ⟨rfl, rfl⟩
  -- a new element differs from the others by its place only
  have at_ {place : Place} (free : (range attr.poolSize).count index = place.onFree)
      (outside : place = .free ∨ place = .outside)
      (known : place.Known (createFmrPool attr maxMapPerFmr).maxRemaps
        (createFmrPool attr maxMapPerFmr |>.els index) []) :
      ((initial attr maxMapPerFmr).seen index).At (createFmrPool attr maxMapPerFmr).maxRemaps place := by
    have calling : ((initial attr maxMapPerFmr).seen index).calling = fun _ => .idle := by
      funext thread
      simp [seen, FmrSys.calling, initial, MapPhase.index]
    rcases outside with rfl | rfl <;>
      exact .unheld rfl (fun _ => rfl) ⟨free, rfl, rfl⟩ rfl calling known (Nat.zero_le _)
        (Nat.zero_le _) rfl
  by_cases inside : index < attr.poolSize
  · have once := count_eq_one_of_mem nodup_range (mem_range.mpr inside)
    exact ⟨.free, at_ once (.inl rfl) ⟨unused, positive, fun _ => rfl⟩⟩
  · have never := count_eq_zero.mpr (mt mem_range.mp inside)
    exact ⟨.outside, at_ never (.inr rfl) ⟨unused, rfl⟩⟩

end FmrSys

/-- What callers and the driver may rely on. -/
structure FmrSound (sys : FmrSys) : Prop where
  /-- What a caller was granted is mapped as it asked, from the start of the page it named;
  that is the address the call returned, and the keys are the region's. -/
  granted : ∀ grant ∈ sys.grants,
    (sys.pool.els grant.index).hFmr.mapping =
        some ⟨grant.request.pages, grant.vaddr, grant.lkey, grant.rkey⟩ ∧
      grant.vaddr = pageStart grant.request.vaddr
  /-- What a call hands to the driver to map is not referred to. -/
  remapped : ∀ thread index request, sys.calls thread = .popped index request →
    (sys.pool.els index).refCount = 0
  /-- What the cleanup thread hands to the driver to unmap is not referred to. -/
  unmapped : ∀ unmapList, sys.cleanup = .detached unmapList →
    ∀ index ∈ unmapList, (sys.pool.els index).refCount = 0
  /-- The driver maps a region at most `max_remaps` times before it unmaps it, and so does
  the pool between two cleanup rounds of an element. -/
  bounded : ∀ index, (sys.pool.els index).hFmr.maps ≤ sys.pool.maxRemaps ∧
    (sys.pool.els index).remapCount ≤ sys.pool.maxRemaps

theorem FmrSys.Placed.sound {sys : FmrSys} (placed : sys.Placed) : FmrSound sys := by
  obtain ⟨-, places⟩ := placed
  constructor
  · intro grant held
    obtain ⟨place, at_⟩ := places grant.index
    apply at_.granted
    simp [FmrSys.seen, held]
  · intro thread index request waits
    obtain ⟨place, at_⟩ := places index
    obtain rfl := FmrSys.place_eq_called waits rfl at_
    exact at_.known.1.1
  · intro unmapList waits index there
    obtain ⟨place, at_⟩ := places index
    have counted : 0 < (sys.seen index).detached := by
      simpa [FmrSys.seen, waits, CleanupPhase.unmapList] using there
    obtain rfl := at_.place_of_detached_pos counted
    exact at_.known.1.1
  · intro index
    obtain ⟨place, at_⟩ := places index
    exact ⟨at_.maps, at_.remaps⟩

/-- In every interleaving of map calls, unmap calls and cleanup rounds, whatever the driver
answers. -/
theorem fmrSound_of_reachable {attr : FmrPoolCreate} {maxMapPerFmr : Nat} {sys : FmrSys}
    (reachable : (fmrMachine attr maxMapPerFmr).Reachable LawfulFmr sys) : FmrSound sys := by
  refine (reachable.invariant ?_ ?_ : sys.Placed).sound
  · rintro state rfl
    exact FmrSys.placed_initial attr maxMapPerFmr
  · intro before event after placed lawful step
    exact placed.next lawful step

/-- A pool of one element, for an adapter that allows one map before an unmap. -/
def sampleFmrSys : FmrSys := .initial ⟨2, 1, 1, true⟩ 1

theorem sampleFmrSys_reachable {events : List FmrEvent} {sys : FmrSys}
    (lawful : Transition.Machine.Guarded FmrSys.next LawfulFmr sampleFmrSys events)
    (ended : Transition.Machine.run FmrSys.next sampleFmrSys events = some sys) :
    (fmrMachine ⟨2, 1, 1, true⟩ 1).Reachable LawfulFmr sys :=
  .run (.initial rfl) lawful ended

/-- What the first two calls of `sampleFmrEvents` are granted. -/
def sampleFmrGrant : FmrGrant := ⟨0, ⟨[0x5000], 0x2000⟩, 0x2000, 7, 9⟩

/-- A map that the driver serves, a second one from the cache, both given back, the element
revived from the dirty list, given back again, and a cleanup round whose unmap fails. -/
def sampleFmrEvents : List FmrEvent :=
  [.map 0 ⟨[0x5000], 0x2000⟩, .driverMap 0 (some (7, 9)), .proceed 0, .proceed 0,
   .map 1 ⟨[0x5000], 0x2000⟩, .unmap sampleFmrGrant, .unmap sampleFmrGrant,
   .map 1 ⟨[0x5000], 0x2000⟩, .unmap sampleFmrGrant, .cleanup, .driverUnmap false, .cleanupDone,
   .map 2 ⟨[0x6000], 0⟩]

/-- The element is on its way to the driver again, and nobody refers to it. -/
theorem sampleFmrEvents_sound : ∃ sys,
    Transition.Machine.run FmrSys.next sampleFmrSys sampleFmrEvents = some sys ∧
      sys.calls 2 = .popped 0 ⟨[0x6000], 0⟩ ∧ FmrSound sys := by
  have lawful : Transition.Machine.Guarded FmrSys.next LawfulFmr sampleFmrSys sampleFmrEvents := by
    decide +kernel
  exact ⟨_, rfl, by decide +kernel, fmrSound_of_reachable (sampleFmrSys_reachable lawful rfl)⟩

/-- A caller that names an address within a page. -/
def unalignedEvents : List FmrEvent :=
  [.map 0 ⟨[0x5000], 0x2001⟩, .driverMap 0 (some (7, 9)), .proceed 0, .proceed 0]

/-- The caller gets a region that starts elsewhere. -/
theorem unalignedEvents_moved : ∃ sys,
    (fmrMachine ⟨2, 1, 1, true⟩ 1).Reachable LawfulFmr sys ∧
      ∃ grant ∈ sys.grants, grant.request = ⟨[0x5000], 0x2001⟩ ∧
        (sys.pool.els grant.index).hFmr.mapping = some ⟨[0x5000], 0x2000, 7, 9⟩ := by
  have lawful : Transition.Machine.Guarded FmrSys.next LawfulFmr sampleFmrSys unalignedEvents := by
    decide +kernel
  refine ⟨_, sampleFmrSys_reachable lawful rfl, ⟨0, ⟨[0x5000], 0x2001⟩, 0x2000, 7, 9⟩, ?_, rfl, ?_⟩
  · decide +kernel
  · decide +kernel

end WinOFED.Al
