import WinOFED.Cep.ListenOrder
import WinOFED.Transition.Machine

/-! When `__lookup_listen` finds the listens that match a REQ: as long as no listen is
entered next to one it is not ordered against, the listens in the map are sorted. -/
namespace WinOFED.Cep
open RedBlack Complib Transition LookupVerdict Option List

/-! ### Runs -/

/-- The listen map is the ordered tree of the listening CEPs. -/
structure ListenMgr.Ordered (mgr : ListenMgr) (tree : RbTree CepId) : Prop where
  holds : mgr.table.map.Holds tree
  listening : ∀ cep, cep ∈ tree.items ↔ mgr.state cep = .listen
  sorted : tree.items.Pairwise fun first second =>
    Precedes (mgr.table.params first) (mgr.table.params second)
  formed : ∀ cep ∈ tree.items, (mgr.table.params cep).WellFormed
  unused : ∀ cep, mgr.state cep ≠ .listen → (mgr.table.params cep).cmpBuf = none

variable {tree : RbTree CepId} {mgr : ListenMgr}

/-- Two listens that a REQ reaches both have compare buffers. -/
theorem ListenMgr.Ordered.cmpBuf (ordered : mgr.Ordered tree) {first second : CepId}
    (one : first ∈ tree.items) (two : second ∈ tree.items) (distinct : first ≠ second)
    (same : (mgr.table.params first).sid = (mgr.table.params second).sid)
    (port : (mgr.table.params first).portGuid ≠ allPorts →
      (mgr.table.params second).portGuid ≠ allPorts →
      (mgr.table.params first).portGuid = (mgr.table.params second).portGuid) :
    (mgr.table.params first).cmpBuf.isSome := by
  have symmetric : Std.Symm fun one two : CepId =>
      Precedes (mgr.table.params one) (mgr.table.params two) ∨
        Precedes (mgr.table.params two) (mgr.table.params one) := ⟨fun _ _ => Or.symm⟩
  rcases @List.Pairwise.forall _ _ _ symmetric (ordered.sorted.imp Or.inl) _ one _ two distinct
    with before | after
  · exact (before.cmpBuf same port).1
  · exact (after.cmpBuf same.symm fun two one => (port one two).symm).2

/-- A compare buffer at which `__lookup_listen` ends is equal, or the REQ is refused because
of the RDMA CM data it has. -/
theorem lookupData_stop {req : ListenReq} {listen : ListenParams} (formed : listen.WellFormed)
    (same : req.sid = listen.sid) (stop : (lookupData req listen).side = none) :
    lookupData req listen = .matched ∨
      lookupData req listen = .refused ∧ listen.cmpBuf.isSome ∧ isRdmaCmSid req.sid ∧
        ¬ (RdmaReq.ofBytes req.pdata).isValid := by
  unfold lookupData at stop ⊢
  cases buffer : listen.cmpBuf with
  | none => exact .inl rfl
  | some buf =>
    have range := (formed buf buffer).2
    rw [← same] at range
    rw [buffer] at stop
    dsimp only at stop ⊢
    split_ifs at range stop ⊢ with rdma valid
    · exact .inl (compared_matched.mpr ⟨(compared_stop.mp stop).1, rfl⟩)
    · exact .inr ⟨rfl, rfl, rdma, valid⟩
    · omega
    · exact .inl (compared_matched.mpr ⟨(compared_stop.mp stop).1, rfl⟩)

/-- `__lookup_listen` finds a listen that matches if there is one, and only those. -/
theorem ListenMgr.Ordered.lookup (ordered : mgr.Ordered tree) (req : ListenReq) :
    ∃ found, lookupListen mgr.table req = some found ∧
      (∀ cep, found = some cep → mgr.state cep = .listen ∧ (mgr.table.params cep).Matches req) ∧
      (found = none → ∀ cep, mgr.state cep = .listen → ¬ (mgr.table.params cep).Matches req) := by
  have steers : Steers (fun cep => (lookupVerdict req (mgr.table.params cep)).side) tree.items :=
    ordered.sorted.imp fun before => ⟨@Ahead.lookup .left _ _ _ before, @Ahead.lookup .right _ _ _ before⟩
  have search := ordered.holds.search fun cep => (lookupVerdict req (mgr.table.params cep)).side
  have matched : ∀ cep, mgr.state cep = .listen → (mgr.table.params cep).Matches req →
      cep ∈ tree.items ∧ lookupVerdict req (mgr.table.params cep) = .matched := by
    intro cep listens fits
    have inside := (ordered.listening cep).mpr listens
    exact ⟨inside, (lookupVerdict_matched (ordered.formed cep inside)).mpr fits⟩
  rcases tree.descend_cases steers with
    ⟨cep, inside, stop, place, color, left, right, ended⟩ | ⟨place, ended, rfl, before, after⟩
  · rw [ended] at search
    dsimp only at search
    have formed := ordered.formed cep inside
    have unfolded : lookupVerdict req (mgr.table.params cep) =
        lookupData req (mgr.table.params cep) ∧ req.sid = (mgr.table.params cep).sid ∧
        ((mgr.table.params cep).portGuid ≠ allPorts → req.portGuid = (mgr.table.params cep).portGuid) ∧
        (lookupData req (mgr.table.params cep)).side = none := by
      obtain ⟨sid, rest⟩ := compared_stop.mp stop
      obtain ⟨port, data⟩ := compared_stop.mp rest
      refine ⟨by simp only [lookupVerdict, sid, port, compared, sideOf],
        Std.compare_eq_iff_eq.mp sid, fun one => ?_, data⟩
      rw [if_pos one] at port
      exact Std.compare_eq_iff_eq.mp port
    obtain ⟨verdict, same, port, data⟩ := unfolded
    rcases lookupData_stop formed same data with fits | ⟨refused, buffer, rdma, invalid⟩
    · refine ⟨some cep, by simp [lookupListen, search, verdict, fits], ?_, by simp⟩
      rintro _ ⟨⟩
      exact ⟨(ordered.listening cep).mp inside, (lookupVerdict_matched formed).mp (verdict.trans fits)⟩
    · refine ⟨none, by simp [lookupListen, search, verdict, refused], by simp, ?_⟩
      intro _ other listens fits
      obtain ⟨listed, hit⟩ := matched other listens fits
      obtain ⟨sid, reached, compared⟩ := fits
      have distinct : other ≠ cep := by
        rintro rfl
        rw [verdict, refused] at hit
        cases hit
      have full := ordered.cmpBuf listed inside distinct (sid.trans same) fun one two =>
        (reached.resolve_left one).trans (port two)
      obtain ⟨buf, own⟩ := isSome_iff_exists.mp full
      have agrees := compared buf own
      have valid := (ordered.formed other listed buf own).2
      rw [sid, if_pos rdma] at agrees valid
      exact invalid (agrees.isValid valid)
  · rw [ended] at search
    refine ⟨none, by simp [lookupListen, search, RbPlace.at], by simp, ?_⟩
    intro _ cep listens fits
    obtain ⟨inside, hit⟩ := matched cep listens fits
    rw [Path.items_plug_leaf, mem_append] at inside
    rcases inside with early | late
    · simpa [hit, side] using before cep early
    · simpa [hit, side] using after cep late

/-- `al_cep_listen` fails without a change of the table, or enters the CEP where its search
has ended. -/
theorem enterListen_cases {table : ListenTable} (holds : table.map.Holds tree) {cep : CepId}
    (fresh : cep ∉ tree.items) (info : ListenInfo) (allocated : Bool) :
    (∃ status, status ≠ .success ∧ enterListen table cep info allocated = some (status, table)) ∨
      ∃ place map grown, validListen info.toListenParams ∧
        tree.descend (fun listen => listenProbe info (table.params listen)) .top = (place, .leaf) ∧
        enterListen table cep info allocated =
          some (.success, ⟨map, table.setParams cep (storeListen info (table.params cep))⟩) ∧
        map.Holds grown ∧ grown.items = place.before ++ cep :: place.after := by
  by_cases valid : validListen info.toListenParams
  · have search := holds.search fun listen => listenProbe info (table.params listen)
    have whole := @RbTree.plug_descend _ (fun listen => listenProbe info (table.params listen)) tree .top
    rcases ended : tree.descend (fun listen => listenProbe info (table.params listen)) .top with
      ⟨place, _ | ⟨color, left, found, right⟩⟩
    · rw [ended] at search whole
      obtain rfl : place.plug .leaf = tree := whole
      by_cases refused : info.cmpBuf.isSome ∧ ¬ allocated
      · refine .inl ⟨.insufficientMemory, by simp, ?_⟩
        simp [enterListen, valid, search, RbPlace.at, rbmapEnd, refused]
      · obtain ⟨map, grown, run, held, items⟩ := holds.insert fresh
        refine .inr ⟨place, map, grown, valid, rfl, ?_, held, items⟩
        have reached : (RbPlace.at place (.leaf : RbTree CepId)).item = rbmapEnd := rfl
        simp only [enterListen, valid, not_true_eq_false, if_false, search, bind_eq_bind,
          bind_some, reached, ne_eq, if_neg refused, run]
    · rw [ended] at search
      exact .inl ⟨.invalidSetting, by simp, by simp [enterListen, valid, search, rbmapEnd]⟩
  · exact .inl ⟨.invalidSetting, by simp, by simp [enterListen, valid]⟩

/-- What is done to a CEP that does not listen, or no longer does, does not concern the other
listens. -/
theorem ListenMgr.Ordered.setUnused {rest : RbTree CepId} {map : RbMap CepId} {cep : CepId}
    {state : CepState} {params : ListenParams} (ordered : mgr.Ordered tree) (holds : map.Holds rest)
    (left : rest.items.Sublist tree.items) (gone : cep ∉ rest.items)
    (listed : ∀ id, id ≠ cep → (id ∈ rest.items ↔ id ∈ tree.items)) (other : state ≠ .listen)
    (clear : params.cmpBuf = none) :
    ({ mgr with table := ⟨map, mgr.table.setParams cep params⟩ }.setState cep
      state).Ordered rest := by
  have kept : ∀ id ∈ rest.items, mgr.table.setParams cep params id = mgr.table.params id := by
    rintro id inside
    refine if_neg ?_
    rintro rfl
    exact gone inside
  refine ⟨holds, fun id => ?_, ?_, fun id inside => ?_, fun id unused => ?_⟩
  · by_cases own : id = cep
    · simp [ListenMgr.setState, own, gone, other]
    · simp [ListenMgr.setState, own, listed id own, ordered.listening id]
  · refine (ordered.sorted.sublist left).imp_of_mem fun {first second} one two order => ?_
    simp only [ListenMgr.setState, kept first one, kept second two]
    exact order
  · simp only [ListenMgr.setState, kept id inside]
    exact ordered.formed id (left.mem inside)
  · by_cases own : id = cep
    · simp [ListenMgr.setState, ListenTable.setParams, own, clear]
    · simp only [ListenMgr.setState, own, if_false] at unused
      simpa [ListenMgr.setState, ListenTable.setParams, own] using ordered.unused id unused

/-- What `al_cep_listen` accepts is well formed if it is in range. -/
theorem ListenInfo.wellFormed {info : ListenInfo} (valid : validListen info.toListenParams)
    (range : info.InRange) : info.toListenParams.WellFormed := by
  intro buf buffer
  refine ⟨info.sized buf buffer, ?_⟩
  split_ifs with rdma
  · simp only [validListen, buffer, rdma, if_true, Bool.decide_and, Bool.decide_eq_true,
      Bool.and_eq_true] at valid
    exact valid.2
  · simpa [ListenInfo.InRange, rdma, buffer] using range

/-- A new listen that is ordered against all established ones is entered in order. -/
theorem ListenMgr.Ordered.enter {place : Path CepId} {grown : RbTree CepId} {map : RbMap CepId}
    {cep : CepId} {info : ListenInfo} (ordered : mgr.Ordered (place.plug .leaf))
    (off : mgr.state cep ≠ .listen) (valid : validListen info.toListenParams) (range : info.InRange)
    (compatible : ∀ other, mgr.state other = .listen → info.Compatible (mgr.table.params other))
    (ended : (place.plug .leaf).descend (fun listen => listenProbe info (mgr.table.params listen))
      .top = (place, .leaf)) (holds : map.Holds grown)
    (items : grown.items = place.before ++ cep :: place.after) :
    ({ mgr with table := ⟨map, mgr.table.setParams cep
      (storeListen info (mgr.table.params cep))⟩ }.setState cep .listen).Ordered grown := by
  have old : (place.plug .leaf).items = place.before ++ place.after := by simp [Path.items_plug]
  have outside : cep ∉ place.before ++ place.after := by
    rw [← old]
    exact mt (ordered.listening cep).mp off
  have listens : ∀ other ∈ place.before ++ place.after, mgr.state other = .listen := by
    rw [← old]
    exact fun other => (ordered.listening other).mp
  have stored : storeListen info (mgr.table.params cep) = info.toListenParams := by
    simp [storeListen, ordered.unused cep off]
  have kept : ∀ other ∈ place.before ++ place.after,
      mgr.table.setParams cep info.toListenParams other = mgr.table.params other := by
    rintro other inside
    refine if_neg ?_
    rintro rfl
    exact outside inside
  have own : mgr.table.setParams cep info.toListenParams cep = info.toListenParams := if_pos rfl
  have steers : Steers (fun listen => listenProbe info (mgr.table.params listen))
      (place.plug .leaf).items := by
    refine ordered.sorted.imp_of_mem fun {first second} one two before => ?_
    have firstFits := compatible first ((ordered.listening first).mp one)
    have secondFits := compatible second ((ordered.listening second).mp two)
    rw [firstFits.probe, secondFits.probe, firstFits.probe, secondFits.probe]
    exact ⟨fun less => less.trans before, before.trans⟩
  obtain ⟨before, after⟩ := RbTree.sides_of_descend steers ended
  have below : ∀ other ∈ place.before, Precedes (mgr.table.params other) info.toListenParams := by
    intro other early
    have fits := compatible other (listens other (mem_append_left _ early))
    exact fits.probe.mp ((before other early).resolve_left (by simp [Path.before]))
  have above : ∀ other ∈ place.after, Precedes info.toListenParams (mgr.table.params other) := by
    intro other late
    have fits := compatible other (listens other (mem_append_right _ late))
    exact fits.probe.mp ((after other late).resolve_left (by simp [Path.after]))
  have listed : ∀ other, other ∈ grown.items ↔ other = cep ∨ other ∈ place.before ++ place.after := by
    intro other
    rw [items, perm_middle.mem_iff, mem_cons]
  rw [stored]
  refine ⟨holds, fun other => ?_, ?_, fun other inside => ?_, fun other unused => ?_⟩
  · by_cases same : other = cep
    · simp [ListenMgr.setState, same, listed]
    · simp only [listed, same, false_or, ListenMgr.setState, if_false]
      rw [← old, ordered.listening]
  · simp only [ListenMgr.setState, items]
    have sorted := ordered.sorted
    rw [old] at sorted
    apply pairwise_insert
    · refine sorted.imp_of_mem fun {first second} one two order => ?_
      rw [kept first one, kept second two]
      exact order
    · intro other inside
      rw [own, kept other (mem_append_left _ inside)]
      exact below other inside
    · intro other inside
      rw [own, kept other (mem_append_right _ inside)]
      exact above other inside
  · rcases (listed other).mp inside with rfl | inside
    · simp only [ListenMgr.setState, own]
      exact ListenInfo.wellFormed valid range
    · simp only [ListenMgr.setState, kept other inside]
      exact ordered.formed other (old ▸ inside)
  · by_cases same : other = cep
    · simp [ListenMgr.setState, same] at unused
    · simp only [ListenMgr.setState, same, if_false] at unused
      simpa [ListenMgr.setState, ListenTable.setParams, same] using ordered.unused other unused

/-- A listen that succeeds is in range and ordered against all established ones. -/
def ListenMgr.Admits (mgr : ListenMgr) : ListenEvent → Prop
  | .listen cep info allocated =>
      (∃ after, alCepListen mgr cep info allocated = some (.success, after)) →
        info.InRange ∧
          ∀ other, mgr.state other = .listen → info.Compatible (mgr.table.params other)
  | _ => True

/-- `al_cep_listen` returns, and keeps the order of the listens. -/
theorem ListenMgr.Ordered.alCepListen (ordered : mgr.Ordered tree) (cep : CepId) (info : ListenInfo)
    (allocated : Bool) :
    ∃ status after, alCepListen mgr cep info allocated = some (status, after) ∧
      (mgr.Admits (.listen cep info allocated) → ∃ grown, after.Ordered grown) := by
  by_cases ready : mgr.state cep = .preReq ∨ mgr.state cep = .idle
  · have off : mgr.state cep ≠ .listen := by
      rcases ready with state | state <;> simp [state]
    have run : Cep.alCepListen mgr cep info allocated =
        (enterListen mgr.table cep info allocated).bind fun result =>
          some (result.1, { mgr with table := result.2 }.setState cep
            (if result.1 = ListenStatus.success then .listen else .idle)) := by
      rcases ready with state | state <;> simp only [Cep.alCepListen, state] <;> rfl
    have outside : cep ∉ tree.items := mt (ordered.listening cep).mp off
    rcases enterListen_cases ordered.holds outside info allocated with
      ⟨status, failed, entered⟩ | ⟨place, map, grown, valid, ended, entered, held, items⟩
    · refine ⟨status, mgr.setState cep .idle, by simp [run, entered, failed], fun _ => ⟨tree, ?_⟩⟩
      have same : mgr.table.setParams cep (mgr.table.params cep) = mgr.table.params := by
        funext id
        simp only [ListenTable.setParams]
        split_ifs with own
        · rw [own]
        · rfl
      have kept := @ListenMgr.Ordered.setUnused _ _ _ _ cep .idle _ ordered ordered.holds (.refl _)
        outside (by simp) (by simp) (ordered.unused cep off)
      rwa [same] at kept
    · rw [entered] at run
      refine ⟨_, _, run, fun admits => ?_⟩
      obtain ⟨range, compatible⟩ := admits ⟨_, run⟩
      have whole := @RbTree.plug_descend _
        (fun listen => listenProbe info (mgr.table.params listen)) tree .top
      rw [ended] at whole
      obtain rfl : place.plug .leaf = tree := whole
      exact ⟨grown, ordered.enter off valid range compatible ended held items⟩
  · refine ⟨.invalidState, mgr, ?_, fun _ => ⟨tree, ordered⟩⟩
    rw [not_or] at ready
    unfold Cep.alCepListen
    split
    · exact absurd ‹_› ready.1
    · exact absurd ‹_› ready.2
    · rfl

/-- Cancelling a listen takes it out of the order. -/
theorem ListenMgr.Ordered.cancelListen
    (ordered : mgr.Ordered tree) {cep : CepId} (listens : mgr.state cep = .listen)
    {state : CepState} (other : state ≠ .listen) :
    ∃ table rest, cancelListen mgr.table cep = some table ∧
      ({ mgr with table }.setState cep state).Ordered rest := by
  obtain ⟨map, rest, run, held, items⟩ := ordered.holds.removeItem ((ordered.listening cep).mpr listens)
  have gone : cep ∉ rest.items := items ▸ ordered.holds.represents.nodup.not_mem_erase
  have left : rest.items.Sublist tree.items := items ▸ erase_sublist
  have listed : ∀ id, id ≠ cep → (id ∈ rest.items ↔ id ∈ tree.items) := fun id distinct =>
    items ▸ mem_erase_of_ne distinct
  exact ⟨⟨map, mgr.table.setParams cep { mgr.table.params cep with cmpBuf := none }⟩, rest,
    by simp [Cep.cancelListen, run], ordered.setUnused held left gone listed other rfl⟩

/-- An event that is admitted keeps the order of the listens. -/
theorem ListenMgr.Ordered.next {after : ListenMgr} {event : ListenEvent}
    (ordered : mgr.Ordered tree) (admitted : mgr.Admits event) (step : mgr.next event = some after)
    :
    ∃ tree, after.Ordered tree := by
  match event with
  | .listen cep info allocated =>
    obtain ⟨status, result, run, keeps⟩ := ordered.alCepListen cep info allocated
    obtain rfl : result = after := by simpa [ListenMgr.next, run] using step
    exact keeps admitted
  | .cancel cep state =>
    simp only [ListenMgr.next] at step
    split_ifs at step with cancelled
    obtain ⟨table, rest, run, kept⟩ := ordered.cancelListen cancelled.1 cancelled.2
    obtain rfl : { mgr with table }.setState cep state = after := by simpa [run] using step
    exact ⟨rest, kept⟩
  | .other cep state sid portGuid cmpLen cmpOffset =>
    simp only [ListenMgr.next] at step
    split_ifs at step with unused
    cases step
    exact ⟨tree, ordered.setUnused ordered.holds (.refl _) (mt (ordered.listening cep).mp unused.1)
      (by simp) unused.2 rfl⟩

/-- Runs from a manager without listens. -/
def listenMachine : Machine ListenMgr ListenEvent :=
  .ofNext
    (fun mgr => (∃ memory, mgr.table.map = rbmapInit memory) ∧
      ∀ cep, mgr.state cep ≠ .listen ∧ (mgr.table.params cep).cmpBuf = none)
    ListenMgr.next

/-- If every successful listen was in range and ordered against those established at the
time, then `__lookup_listen` returns for every REQ a listening CEP that matches it, or NULL
if there is none; and further calls of `al_cep_listen` and cancellations return. -/
theorem lookupListen_of_admitted {mgr : ListenMgr}
    (reachable : listenMachine.Reachable ListenMgr.Admits mgr) (req : ListenReq) :
    (∃ found, lookupListen mgr.table req = some found ∧
      (∀ cep, found = some cep → mgr.state cep = .listen ∧ (mgr.table.params cep).Matches req) ∧
      (found.isSome ↔ ∃ cep, mgr.state cep = .listen ∧ (mgr.table.params cep).Matches req)) ∧
      (∀ cep info allocated, (alCepListen mgr cep info allocated).isSome) ∧
      ∀ cep, mgr.state cep = .listen → (cancelListen mgr.table cep).isSome := by
  obtain ⟨tree, ordered⟩ : ∃ tree, mgr.Ordered tree := by
    refine @Transition.Machine.Reachable.invariant _ _ _ _ (fun mgr => ∃ tree, mgr.Ordered tree)
      ?_ ?_ _ reachable
    · rintro start ⟨⟨memory, empty⟩, off⟩
      refine ⟨.leaf, ?_, fun cep => ?_, List.Pairwise.nil, by simp, fun cep _ => (off cep).2⟩
      · rw [empty]
        exact rbmapInit_holds memory
      · simp [(off cep).1]
    · rintro before event after ⟨tree, ordered⟩ admitted step
      exact ordered.next admitted step
  obtain ⟨found, run, sound, complete⟩ := ordered.lookup req
  refine ⟨⟨found, run, sound, ?_⟩, fun cep info allocated => ?_, fun cep listens => ?_⟩
  · cases found with
    | none => simpa using complete rfl
    | some cep => simpa using ⟨cep, sound cep rfl⟩
  · obtain ⟨status, after, returned, _⟩ := ordered.alCepListen cep info allocated
    simp [returned]
  · obtain ⟨table, _, returned, _⟩ := @ListenMgr.Ordered.cancelListen _ _ ordered cep listens .idle
      (by simp)
    simp [returned]

/-! ### Two listens found, and listens that are missed -/

/-- A manager without listens. -/
def noListens : ListenMgr :=
  { table :=
      { map := rbmapInit ⟨⟨fun _ _ => .nil, fun _ => .nil, fun _ => .red⟩, 0⟩
        params := fun _ => { sid := 0, portGuid := 0, cmpBuf := none, cmpLen := 0, cmpOffset := 0 } }
    state := fun _ => .idle }

theorem noListens_initial : listenMachine.initial noListens :=
  ⟨⟨_, rfl⟩, fun _ => ⟨by simp [noListens], rfl⟩⟩

/-- A listen without a compare buffer. -/
def portListen (portGuid : UInt64) : ListenInfo :=
  { sid := 7, portGuid, cmpBuf := none, cmpLen := 0, cmpOffset := 0, cmpBufField := fun _ => 0
    sized := by simp }

/-- A listen for one byte; the pointer to the buffer is one of low address. -/
def byteListen (byte : UInt8) : ListenInfo :=
  { sid := 7, portGuid := 3, cmpBuf := some [byte], cmpLen := 1, cmpOffset := 0
    cmpBufField := fun _ => 0
    sized := by rintro _ ⟨⟩; rfl }

/-- The head of the private data of an RDMA CM request to an IPv4 address that starts with
the byte. -/
def rdmaBytes (byte : UInt8) : List UInt8 :=
  0 :: 0x40 :: (List.replicate 18 0 ++ byte :: List.replicate 15 0)

/-- A listen for RDMA CM requests to an address. -/
def rdmaListen (portGuid : UInt64) (byte : UInt8) : ListenInfo :=
  { sid := 0x0000000100000000, portGuid, cmpBuf := some (rdmaBytes byte), cmpLen := 36
    cmpOffset := 0x04, cmpBufField := fun _ => 0
    sized := by rintro _ ⟨⟩; rfl }

/-- A REQ whose private data starts with the bytes. -/
def reqWith (sid portGuid : UInt64) (bytes : List UInt8) (short : bytes.length ≤ reqPdataSize) :
    ListenReq :=
  { sid, portGuid, pdata := bytes ++ List.replicate (reqPdataSize - bytes.length) 0
    sized := by simp; omega }

instance (listen : ListenParams) (req : ListenReq) : Decidable (listen.Matches req) :=
  inferInstanceAs (Decidable (_ ∧ _ ∧ ∀ buf ∈ listen.cmpBuf, ite _ _ _))

/-- Two listens on two ports, and a REQ for the second. -/
theorem lookupListen_secondPort :
    ∃ mgr found, listenMachine.Reachable ListenMgr.Admits mgr ∧
      lookupListen mgr.table (reqWith 7 5 [] (by simp)) = some (some found) ∧
      (mgr.table.params found).Matches (reqWith 7 5 [] (by simp)) := by
  have guarded : Machine.Guarded ListenMgr.next ListenMgr.Admits noListens
      [.listen 1 (portListen 3) true, .listen 2 (portListen 5) true] := by
    refine ⟨fun _ => ⟨by simp [ListenInfo.InRange, portListen], by simp [noListens]⟩,
      fun after first => ⟨fun _ => ⟨by simp [ListenInfo.InRange, portListen],
        fun other listens => ?_⟩, fun _ _ => trivial⟩⟩
    have state : (noListens.next (.listen 1 (portListen 3) true)).map (fun mgr => mgr.state other) =
        some (if other = 1 then .listen else .idle) := rfl
    have params : (noListens.next (.listen 1 (portListen 3) true)).map
        (fun mgr => mgr.table.params 1) = some (portListen 3).toListenParams := rfl
    rw [first, map_some, some.injEq] at state params
    obtain rfl : other = 1 := by
      by_contra distinct
      simp [listens, distinct] at state
    rw [params]
    simp [ListenInfo.Compatible, portListen, allPorts]
  obtain ⟨mgr, reachable, listens, fits⟩ : ∃ mgr, listenMachine.Reachable ListenMgr.Admits mgr ∧
      mgr.state 2 = .listen ∧ (mgr.table.params 2).Matches (reqWith 7 5 [] (by simp)) :=
    Machine.reaches_of_any noListens_initial _ guarded (by decide +kernel)
  obtain ⟨found, returned, sound, complete⟩ :=
    (lookupListen_of_admitted reachable (reqWith 7 5 [] (by simp))).1
  obtain ⟨cep, rfl⟩ := isSome_iff_exists.mp (complete.mpr ⟨2, listens, fits⟩)
  exact ⟨mgr, cep, reachable, returned, (sound cep rfl).2⟩

/-- Listens that match a REQ and are not found. In the first run the second listen is placed
by the address of its compare buffer, in the other one by the order of the third against a
listen on all ports that the search for it does not meet. -/
theorem lookupListen_missed :
    (∃ mgr, listenMachine.Reachable (fun _ _ => True) mgr ∧ mgr.state 2 = .listen ∧
      (mgr.table.params 2).Matches (reqWith 7 3 [9] (by decide)) ∧
      lookupListen mgr.table (reqWith 7 3 [9] (by decide)) = some none) ∧
    ∃ mgr, listenMachine.Reachable (fun _ _ => True) mgr ∧ mgr.state 2 = .listen ∧
      (mgr.table.params 2).Matches (reqWith 0x0000000100000000 7 (rdmaBytes 3) (by decide)) ∧
      lookupListen mgr.table (reqWith 0x0000000100000000 7 (rdmaBytes 3) (by decide)) =
        some none := by
  constructor
  · exact Machine.reaches_of_any noListens_initial
      [.listen 1 (byteListen 5) true, .listen 2 (byteListen 9) true]
      (Machine.guarded_of_forall (fun _ _ => trivial) _ _) (by decide +kernel)
  · exact Machine.reaches_of_any noListens_initial
      [.listen 1 (rdmaListen 5 5) true, .listen 2 (rdmaListen allPorts 3) true,
        .listen 3 (rdmaListen 7 1) true]
      (Machine.guarded_of_forall (fun _ _ => trivial) _ _) (by decide +kernel)

end WinOFED.Cep
