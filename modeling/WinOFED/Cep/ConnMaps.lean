import WinOFED.Cep.Books
import WinOFED.Cep.ListenOrder

/-! Duplicate connections: which CEPs `__insert_cep` and `__remove_cep` link in the two
connection maps, and which duplicates the searches find.

The search by communication ID goes by the CEPs in the map. The search by QPN reads other
bytes of them, so that its map is a red-black tree without an order. -/
namespace WinOFED.Cep
open RedBlack Complib Transition Option List

/-! ### The linked connections -/

/-- What a connection is known by on its remote side. -/
structure Remote where
  commId : UInt32
  caGuid : UInt64
  qpn : UInt32
deriving DecidableEq, Repr

namespace Remote

def SameId (remote other : Remote) : Prop :=
  remote.commId = other.commId ∧ remote.caGuid = other.caGuid

def SameQp (remote other : Remote) : Prop :=
  remote.qpn = other.qpn ∧ remote.caGuid = other.caGuid

instance (remote other : Remote) : Decidable (remote.SameId other) := inferInstanceAs (Decidable (_ ∧ _))

instance (remote other : Remote) : Decidable (remote.SameQp other) := inferInstanceAs (Decidable (_ ∧ _))

/-- The order of the map by communication ID. -/
def idOrder : Remote → Remote → Ordering := compareLex (compareOn commId) (compareOn caGuid)

theorem idOrder_eq {remote other : Remote} : idOrder remote other = .eq ↔ remote.SameId other := by
  simp [idOrder, compareLex, compareOn, SameId, Ordering.then_eq_eq]

instance : Std.TransCmp idOrder := inferInstanceAs (Std.TransCmp (compareLex _ _))

end Remote

/-- The remote side of a CEP. -/
def Kcep.peer (kcep : Kcep) : Remote := ⟨kcep.remoteCommId, kcep.remoteCaGuid, kcep.remoteQpn⟩

/-- The CEP with another remote side, as a REQ or a REP gives it. -/
def Kcep.setRemote (kcep : Kcep) (remote : Remote) : Kcep :=
  { kcep with
    remoteCommId := remote.commId, remoteCaGuid := remote.caGuid, remoteQpn := remote.qpn }

/-- The CEPs that are linked, with the remote sides they were linked with. -/
abbrev ConnTable := CepId → Option Remote

/-- Another connection of the table has the remote communication ID and CA GUID. -/
def ConnTable.HasId (linked : ConnTable) (remote : Remote) : Prop :=
  ∃ other held, linked other = some held ∧ held.SameId remote

/-- Another connection of the table has the remote QPN and CA GUID. -/
def ConnTable.HasQp (linked : ConnTable) (remote : Remote) : Prop :=
  ∃ other held, linked other = some held ∧ held.SameQp remote

/-! ### Calls -/

/-- The manager, and which CEPs its callers have linked. -/
structure Conns where
  mgr : CepMgr
  linked : ConnTable

/-- The calls that change the two maps. -/
inductive ConnCall
  | insert (cep : CepId) (remote : Remote) (misread : Misread)
  | remove (cep : CepId)

/-- `__insert_cep` of a CEP that has got its remote side. -/
def insertAs (mgr : CepMgr) (cep : CepId) (remote : Remote) (misread : Misread) :
    Option (Inserted × CepMgr) := do
  let kcep ← mgr.ceps cep
  insertCep (mgr.setCep cep (kcep.setRemote remote)) cep misread

/-- The manager after a call. A CEP is inserted only while it is not linked. -/
def Conns.next (conns : Conns) : ConnCall → Option Conns
  | .insert cep remote misread =>
      if conns.linked cep = none then do
        let (result, mgr) ← insertAs conns.mgr cep remote misread
        let linked := Function.update conns.linked cep (some remote)
        some { mgr, linked := if result = .inserted then linked else conns.linked }
      else none
  | .remove cep => do
      let mgr ← removeCep conns.mgr cep
      some { mgr, linked := Function.update conns.linked cep none }

/-- The maps have just been initialized and no CEP has a remote side. -/
def Conns.Initial (conns : Conns) : Prop :=
  (∃ memory, conns.mgr.connIdMap = rbmapInit memory) ∧
    (∃ memory, conns.mgr.connQpMap = rbmapInit memory) ∧ conns.linked = (fun _ => none) ∧
    ∀ cep kcep, conns.mgr.ceps cep = some kcep → kcep.remoteCommId = 0 ∧ kcep.remoteQpn = 0

/-- The maps from their initialization on. -/
def connMachine : Machine Conns ConnCall := .ofNext Conns.Initial Conns.next

/-- What the call is for: a CEP is linked in both maps if there is no duplicate; if there is
one the maps stay as they are and the duplicate is returned. -/
def Conns.Detects (conns : Conns) (cep : CepId) (remote : Remote) (result : Inserted)
    (after : CepMgr) : Prop :=
  (¬ conns.linked.HasId remote ∧ ¬ conns.linked.HasQp remote → result = .inserted) ∧
    (conns.linked.HasId remote ∨ conns.linked.HasQp remote → ∃ other held,
      result = .stale other ∧ conns.linked other = some held ∧
        (held.SameId remote ∨ held.SameQp remote)) ∧
    if result = .inserted then
      (∀ other, other ∈ rbmapItems after.connIdMap ↔
        other = cep ∨ other ∈ rbmapItems conns.mgr.connIdMap) ∧
      ∀ other, other ∈ rbmapItems after.connQpMap ↔
        other = cep ∨ other ∈ rbmapItems conns.mgr.connQpMap
    else rbmapItems after.connIdMap = rbmapItems conns.mgr.connIdMap ∧
      rbmapItems after.connQpMap = rbmapItems conns.mgr.connQpMap

/-- Where the search of `__insert_by_qpn` goes on. -/
def qpProbe (remote : Remote) (misread : Misread) (entry : CepId) : Option Side :=
  sideOf <| (compare remote.qpn (misread entry).1).then (compare remote.caGuid (misread entry).2)

/-- The search by QPN takes no CEP for the new one. -/
def Conns.PassesQp (conns : Conns) (remote : Remote) (misread : Misread) : Prop :=
  (rbmapSearch conns.mgr.connQpMap (qpProbe remote misread)).any (·.item = rbmapEnd) = true

/-- What can be in the bytes that are taken for the QPN of a CEP. They are `grh.ver_class_flow`
of its `av[0]`: zero, or what `ib_grh_set_ver_class_flow` has put there, with version 1 in the
upper half of the first byte. -/
def FlowBytes (bytes : UInt32) : Prop := bytes = 0 ∨ bytes % 256 ≠ 0

/-- The bytes of a QPN that a REQ or a REP can give: 24 bits in network order, not all zero. -/
def QpnBytes (qpn : UInt32) : Prop := qpn ≠ 0 ∧ qpn % 256 = 0

/-- A CEP that is taken out of the maps was linked with identifiers that are not zero. -/
def Conns.Marked (conns : Conns) : ConnCall → Prop
  | .insert .. => True
  | .remove cep => ∀ remote, conns.linked cep = some remote → remote.commId ≠ 0 ∧ remote.qpn ≠ 0

/-! ### The maps and the table -/

/-- The maps hold the trees, and the CEPs in both are the linked ones. -/
structure Conns.Holds (conns : Conns) (ids qps : RbTree CepId) : Prop where
  idMap : conns.mgr.connIdMap.Holds ids
  qpMap : conns.mgr.connQpMap.Holds qps
  inIds : ∀ cep, cep ∈ ids.items ↔ (conns.linked cep).isSome
  inQps : ∀ cep, cep ∈ qps.items ↔ (conns.linked cep).isSome
  known : ∀ cep remote, conns.linked cep = some remote →
    ∃ kcep, conns.mgr.ceps cep = some kcep ∧ kcep.peer = remote
  sorted : ids.items.Pairwise fun first second =>
    Remote.idOrder (conns.mgr.read first).peer (conns.mgr.read second).peer = .lt

/-- A CEP that is not linked has no remote identifiers, so that it is not taken out. -/
def Conns.Cleared (conns : Conns) : Prop :=
  ∀ cep kcep, conns.linked cep = none → conns.mgr.ceps cep = some kcep →
    kcep.remoteCommId = 0 ∧ kcep.remoteQpn = 0

/-- The maps and the linked CEPs agree. -/
def Conns.Agree (conns : Conns) : Prop := (∃ ids qps, conns.Holds ids qps) ∧ conns.Cleared

section
variable {conns : Conns} {ids qps : RbTree CepId} {cep : CepId} {kcep : Kcep} {remote : Remote}
  {misread : Misread}

/-- The search by QPN stops at no CEP, as no bytes that it reads there are those of a QPN. -/
theorem search_qpProbe {mgr : CepMgr} {member : CepId → Prop}
    (contains : mgr.connQpMap.Contains member)
    (flow : ∀ entry, member entry → FlowBytes (misread entry).1) (qpn : QpnBytes remote.qpn) :
    ∃ place, rbmapSearch mgr.connQpMap (qpProbe remote misread) = some place ∧
      place.item = rbmapEnd := by
  obtain ⟨place, search, ⟨entry, _, inside, stop⟩ | ⟨ended, _⟩⟩ :=
    contains.search (qpProbe remote misread)
  · have equal : remote.qpn = (misread entry).1 :=
      Std.LawfulEqOrd.compare_eq_iff_eq.mp (Ordering.then_eq_eq.mp (sideOf_none.mp stop)).1
    rcases flow entry inside with zero | version
    · exact absurd (equal.trans zero) qpn.1
    · exact absurd (equal ▸ qpn.2) version
  · exact ⟨place, search, ended⟩

/-- `__insert_cep` does not return a pointer that is none to a CEP. -/
theorem insertCep_ne_astray {mgr after : CepMgr} {member : CepId → Prop}
    (contains : mgr.connQpMap.Contains member) (here : mgr.ceps cep = some kcep)
    (flow : ∀ entry, member entry → FlowBytes (misread entry).1)
    (qpn : QpnBytes kcep.remoteQpn) : insertCep mgr cep misread ≠ some (.astray, after) := by
  obtain ⟨place, search, ended⟩ := @search_qpProbe kcep.peer misread mgr member contains flow qpn
  intro astray
  simp only [insertCep, here, bind_eq_bind, bind_some, bind_eq_some_iff, Prod.exists] at astray
  obtain ⟨byQpn, mid, inserted, rest⟩ := astray
  change (rbmapSearch mgr.connQpMap (qpProbe kcep.peer misread)).bind _ = _ at inserted
  rw [search, bind_some, ended] at inserted
  obtain ⟨connQpMap, -, same⟩ := bind_eq_some_iff.mp inserted
  cases same
  simp only [if_true, bind_eq_some_iff, Prod.exists] at rest
  obtain ⟨found, last, -, rest⟩ := rest
  cases found with
  | none => cases rest
  | some other =>
    obtain ⟨_, -, same⟩ := bind_eq_some_iff.mp rest
    cases same

theorem Conns.Holds.read (holds : conns.Holds ids qps) (linked : conns.linked cep = some remote) :
    (conns.mgr.read cep).peer = remote := by
  obtain ⟨kcep, here, same⟩ := holds.known cep remote linked
  rw [CepMgr.read, here]
  exact same

/-- The search by communication ID steers through the CEPs in the map. -/
theorem Conns.Holds.steers (holds : conns.Holds ids qps) (remote : Remote) :
    Steers (idProbe conns.mgr remote.commId remote.caGuid) ids.items := by
  refine holds.sorted.imp fun {first second} before => ⟨fun left => ?_, fun right => ?_⟩
  · have less : Remote.idOrder remote (conns.mgr.read first).peer = .lt := sideOf_left.mp left
    have further : Remote.idOrder remote (conns.mgr.read second).peer = .lt :=
      Std.TransCmp.lt_trans less before
    exact sideOf_left.mpr further
  · have more : Remote.idOrder remote (conns.mgr.read second).peer = .gt := sideOf_right.mp right
    have further : Remote.idOrder remote (conns.mgr.read first).peer = .gt :=
      Std.TransCmp.gt_trans more (Std.OrientedCmp.gt_of_lt before)
    exact sideOf_right.mpr further

/-- The search by communication ID ends at a CEP with the same one and the same CA GUID, or
at the place between the smaller and the greater ones. -/
theorem Conns.Holds.searchId (holds : conns.Holds ids qps) (remote : Remote) :
    ∃ place, rbmapSearch conns.mgr.connIdMap (idProbe conns.mgr remote.commId remote.caGuid) =
        some place ∧
      ((∃ other held, place.item = .item other ∧ conns.linked other = some held ∧
          held.SameId remote) ∨
        ∃ path : Path CepId, path.plug .leaf = ids ∧ place = .at path .leaf ∧
          (∀ other ∈ path.before, Remote.idOrder (conns.mgr.read other).peer remote = .lt) ∧
          ∀ other ∈ path.after, Remote.idOrder remote (conns.mgr.read other).peer = .lt) := by
  have search := holds.idMap.search (idProbe conns.mgr remote.commId remote.caGuid)
  rcases ids.descend_cases (holds.steers remote) with
    ⟨other, inside, stop, place, color, left, right, ended⟩ | ⟨path, ended, whole, before, after⟩
  · rw [ended] at search
    refine ⟨_, search, .inl ?_⟩
    obtain ⟨held, linked⟩ := isSome_iff_exists.mp ((holds.inIds other).mp inside)
    have same : Remote.idOrder remote (conns.mgr.read other).peer = .eq := sideOf_none.mp stop
    rw [holds.read linked, Remote.idOrder_eq] at same
    exact ⟨other, held, rfl, linked, same.1.symm, same.2.symm⟩
  · rw [ended] at search
    refine ⟨_, search, .inr ⟨path, whole, rfl, fun other listed => ?_, fun other listed => ?_⟩⟩
    · have more : Remote.idOrder remote (conns.mgr.read other).peer = .gt :=
        sideOf_right.mp (before other listed)
      exact Std.OrientedCmp.lt_of_gt more
    · exact sideOf_left.mp (after other listed)

section
variable (holds : conns.Holds ids qps) (unlinked : conns.linked cep = none)
include holds unlinked

/-- The maps do not depend on the CEPs that are not linked. -/
theorem Conns.Holds.setCep (kcep : Kcep) :
    Conns.Holds { conns with mgr := conns.mgr.setCep cep kcep } ids qps := by
  have other : ∀ linked, (conns.linked linked).isSome → linked ≠ cep := by
    rintro linked some rfl
    rw [unlinked] at some
    cases some
  refine ⟨holds.idMap, holds.qpMap, holds.inIds, holds.inQps, fun linked remote there => ?_, ?_⟩
  · obtain ⟨kept, here, same⟩ := holds.known linked remote there
    have apart := other linked (isSome_of_eq_some there)
    exact ⟨kept, by simp [CepMgr.setCep, apart, here], same⟩
  · refine holds.sorted.imp_of_mem fun {first second} inside within before => ?_
    have one := other first ((holds.inIds first).mp inside)
    have two := other second ((holds.inIds second).mp within)
    simpa [CepMgr.read, CepMgr.setCep, one, two] using before

theorem Conns.Holds.outside : cep ∉ ids.items ∧ cep ∉ qps.items := by
  rw [holds.inIds, holds.inQps, unlinked]
  simp

/-- `__insert_by_qpn` stops at a CEP that it takes for a duplicate, or links the new one. -/
theorem Conns.Holds.insertByQpn_cases (kcep : Kcep) (misread : Misread) :
    (¬ conns.PassesQp kcep.peer misread ∧
      insertByQpn conns.mgr cep kcep misread = some (false, conns.mgr)) ∨
    (conns.PassesQp kcep.peer misread ∧ ∃ connQpMap more before after,
      insertByQpn conns.mgr cep kcep misread = some (true, { conns.mgr with connQpMap }) ∧
      connQpMap.Holds more ∧ qps.items = before ++ after ∧ more.items = before ++ cep :: after) := by
  have search := holds.qpMap.search (qpProbe kcep.peer misread)
  have whole := @RbTree.plug_descend _ (qpProbe kcep.peer misread) qps .top
  rcases ended : qps.descend (qpProbe kcep.peer misread) .top with
    ⟨path, _ | ⟨color, left, found, right⟩⟩
  · rw [ended] at search whole
    obtain rfl : path.plug .leaf = qps := whole
    obtain ⟨connQpMap, more, added, held, items⟩ := holds.qpMap.insert (holds.outside unlinked).2
    refine .inr ⟨?_, connQpMap, more, path.before, path.after, ?_, held, ?_, items⟩
    · rw [Conns.PassesQp, search]
      rfl
    · change (rbmapSearch conns.mgr.connQpMap (qpProbe kcep.peer misread)).bind _ = _
      rw [search]
      change (rbmapInsert _ (RbPlace.at path .leaf).insertAt _ (RbPlace.at path .leaf).left).bind _ = _
      rw [added]
      rfl
    · simp [Path.items_plug]
  · rw [ended] at search
    refine .inl ⟨?_, ?_⟩
    · rw [Conns.PassesQp, search]
      simp [rbmapEnd]
    · change (rbmapSearch conns.mgr.connQpMap (qpProbe kcep.peer misread)).bind _ = _
      rw [search]
      rfl

/-- `__insert_by_id` finds a CEP with the same communication ID and CA GUID, or links the
new one in its place, whatever the map by QPN is. -/
theorem Conns.Holds.insertById_cases (kcep : Kcep) (connQpMap : RbMap CepId) :
    (∃ other held, conns.linked other = some held ∧ held.SameId kcep.peer ∧
      insertById { conns.mgr with connQpMap } cep kcep = some (some other, { conns.mgr with connQpMap })) ∨
    (¬ conns.linked.HasId kcep.peer ∧ ∃ connIdMap more before after,
      insertById { conns.mgr with connQpMap } cep kcep =
        some (none, { conns.mgr with connIdMap, connQpMap }) ∧
      connIdMap.Holds more ∧ ids.items = before ++ after ∧ more.items = before ++ cep :: after ∧
      (∀ other ∈ before, Remote.idOrder (conns.mgr.read other).peer kcep.peer = .lt) ∧
      ∀ other ∈ after, Remote.idOrder kcep.peer (conns.mgr.read other).peer = .lt) := by
  obtain ⟨place, search, ⟨other, held, stop, linked, same⟩ | ⟨gap, rfl, rfl, before, after⟩⟩ :=
    holds.searchId kcep.peer
  · refine .inl ⟨other, held, linked, same, ?_⟩
    change (rbmapSearch conns.mgr.connIdMap
      (idProbe conns.mgr kcep.peer.commId kcep.peer.caGuid)).bind _ = _
    rw [search]
    simp [stop]
  · obtain ⟨connIdMap, more, added, held, items⟩ := holds.idMap.insert (holds.outside unlinked).1
    refine .inr ⟨?_, connIdMap, more, gap.before, gap.after, ?_, held, ?_, items, before, after⟩
    · rintro ⟨other, found, linked, same⟩
      have equal := Remote.idOrder_eq.mpr same
      have inside := (holds.inIds other).mpr (isSome_of_eq_some linked)
      rw [Path.items_plug_leaf, mem_append] at inside
      rcases inside with early | late
      · have less := before other early
        rw [holds.read linked, equal] at less
        cases less
      · have more := Std.OrientedCmp.gt_of_lt (after other late)
        rw [holds.read linked, equal] at more
        cases more
    · change (rbmapSearch conns.mgr.connIdMap
        (idProbe conns.mgr kcep.peer.commId kcep.peer.caGuid)).bind _ = _
      rw [search]
      change (rbmapInsert _ (RbPlace.at gap .leaf).insertAt _ (RbPlace.at gap .leaf).left).bind _ = _
      rw [added]
      rfl
    · simp [Path.items_plug]

end

variable {connQpMap connIdMap : RbMap CepId} {moreIds moreQps : RbTree CepId}

/-- Another map by QPN with the same CEPs. -/
theorem Conns.Holds.setQpMap (holds : conns.Holds ids qps) {rest : RbTree CepId}
    (held : connQpMap.Holds rest) (items : rest.items = qps.items) :
    Conns.Holds { conns with mgr := { conns.mgr with connQpMap } } ids rest := by
  refine ⟨holds.idMap, held, holds.inIds, fun other => ?_, holds.known, holds.sorted⟩
  rw [items]
  exact holds.inQps other

/-- A CEP has been put into both maps, into the one by communication ID at its place. -/
theorem Conns.Holds.link (holds : conns.Holds ids qps) (here : conns.mgr.ceps cep = some kcep)
    {before after : List CepId} (idMap : connIdMap.Holds moreIds) (qpMap : connQpMap.Holds moreQps)
    (inQps : ∀ other, other ∈ moreQps.items ↔ other = cep ∨ other ∈ qps.items)
    (split : ids.items = before ++ after) (joined : moreIds.items = before ++ cep :: after)
    (less : ∀ other ∈ before, Remote.idOrder (conns.mgr.read other).peer kcep.peer = .lt)
    (more : ∀ other ∈ after, Remote.idOrder kcep.peer (conns.mgr.read other).peer = .lt) :
    Conns.Holds
      { mgr := { conns.mgr with connIdMap, connQpMap }
        linked := Function.update conns.linked cep (some kcep.peer) } moreIds moreQps := by
  have isSome : ∀ other, (Function.update conns.linked cep (some kcep.peer) other).isSome ↔
      other = cep ∨ (conns.linked other).isSome := by
    intro other
    by_cases equal : other = cep
    · simp [equal]
    · simp [equal]
  have read : conns.mgr.read cep = kcep := by rw [CepMgr.read, here, getD_some]
  refine ⟨idMap, qpMap, fun other => ?_, fun other => ?_, fun other remote linked => ?_, ?_⟩
  · rw [isSome, ← holds.inIds, split, joined, perm_middle.mem_iff, mem_cons]
  · rw [isSome, ← holds.inQps, inQps]
  · obtain ⟨rfl, ⟨⟩⟩ | ⟨-, linked⟩ := update_cases linked
    · exact ⟨kcep, here, rfl⟩
    · exact holds.known other remote linked
  · rw [joined]
    refine pairwise_insert (split ▸ holds.sorted) (fun other early => ?_) fun other late => ?_
    · change Remote.idOrder (conns.mgr.read other).peer (conns.mgr.read cep).peer = .lt
      rw [read]
      exact less other early
    · change Remote.idOrder (conns.mgr.read cep).peer (conns.mgr.read other).peer = .lt
      rw [read]
      exact more other late

/-- What `__insert_cep` can do: stop at a CEP that the search by QPN takes for a duplicate,
find one with the same communication ID and undo the first insertion, or link the CEP. -/
theorem Conns.Holds.insertCep_cases (holds : conns.Holds ids qps)
    (unlinked : conns.linked cep = none) (here : conns.mgr.ceps cep = some kcep)
    (misread : Misread) :
    (¬ conns.PassesQp kcep.peer misread ∧
      insertCep conns.mgr cep misread = some (.astray,
        conns.mgr.setCep cep { kcep with remoteQpn := 0, remoteCommId := 0 })) ∨
    (conns.PassesQp kcep.peer misread ∧ ∃ other held connQpMap rest,
      conns.linked other = some held ∧ held.SameId kcep.peer ∧
      insertCep conns.mgr cep misread = some (.stale other,
        { conns.mgr with connQpMap }.setCep cep { kcep with remoteQpn := 0, remoteCommId := 0 }) ∧
      connQpMap.Holds rest ∧ rest.items = qps.items) ∨
    (conns.PassesQp kcep.peer misread ∧ ¬ conns.linked.HasId kcep.peer ∧
      ∃ connIdMap connQpMap moreIds moreQps,
        insertCep conns.mgr cep misread = some (.inserted, { conns.mgr with connIdMap, connQpMap }) ∧
        Conns.Holds
          { mgr := { conns.mgr with connIdMap, connQpMap }
            linked := Function.update conns.linked cep (some kcep.peer) } moreIds moreQps ∧
        (∀ other, other ∈ moreIds.items ↔ other = cep ∨ other ∈ ids.items) ∧
        ∀ other, other ∈ moreQps.items ↔ other = cep ∨ other ∈ qps.items) := by
  rcases holds.insertByQpn_cases unlinked kcep misread with
    ⟨stops, byQpn⟩ | ⟨passes, connQpMap, moreQps, early, late, byQpn, qpMap, cut, items⟩
  · exact .inl ⟨stops, by simp [insertCep, here, byQpn]⟩
  rcases holds.insertById_cases unlinked kcep connQpMap with
    ⟨other, held, linked, same, found⟩ |
    ⟨fresh, connIdMap, moreIds, before, after, added, idMap, split, joined, less, more⟩
  · obtain ⟨shorter, rest, removed, restHeld, restItems⟩ :=
      qpMap.removeItem (show cep ∈ moreQps.items by simp [items])
    refine .inr (.inl ⟨passes, other, held, shorter, rest, linked, same, ?_, restHeld, ?_⟩)
    · simp [insertCep, here, byQpn, found, removed]
    · have outside := (holds.outside unlinked).2
      rw [cut] at outside
      rw [restItems, items, cut, erase_append_right _ fun inside => outside (by simp [inside]),
        erase_cons_head]
  · have inQps : ∀ other, other ∈ moreQps.items ↔ other = cep ∨ other ∈ qps.items := by
      intro other
      rw [items, cut, perm_middle.mem_iff, mem_cons]
    refine .inr (.inr ⟨passes, fresh, connIdMap, connQpMap, moreIds, moreQps, ?_,
      holds.link here idMap qpMap inQps split joined less more, fun other => ?_, inQps⟩)
    · simp [insertCep, here, byQpn, added]
    · rw [split, joined, perm_middle.mem_iff, mem_cons]

/-- A call has changed one CEP only. -/
theorem Conns.Cleared.change {after : Conns} (cleared : conns.Cleared)
    (ceps : after.mgr.ceps = (conns.mgr.setCep cep kcep).ceps)
    (others : ∀ other ≠ cep, after.linked other = conns.linked other)
    (own : after.linked cep = none → kcep.remoteCommId = 0 ∧ kcep.remoteQpn = 0) :
    after.Cleared := by
  intro other held unlinked here
  rw [ceps] at here
  obtain ⟨rfl, rfl⟩ | ⟨apart, here⟩ := CepMgr.of_ceps_setCep here
  · exact own unlinked
  · exact cleared other held (others other apart ▸ unlinked) here

/-- What the two searches say is what there is to say about duplicates. -/
theorem Conns.Holds.detects_iff (holds : conns.Holds ids qps) {result : Inserted} {after : CepMgr}
    (idMap : after.connIdMap.Holds moreIds) (qpMap : after.connQpMap.Holds moreQps) {passes : Prop}
    (cases : (¬ passes ∧ result = .astray) ∨
      (passes ∧ moreIds.items = ids.items ∧ moreQps.items = qps.items ∧ ∃ other held,
        result = .stale other ∧ conns.linked other = some held ∧ held.SameId remote) ∨
      (passes ∧ ¬ conns.linked.HasId remote ∧ result = .inserted ∧
        (∀ other, other ∈ moreIds.items ↔ other = cep ∨ other ∈ ids.items) ∧
        ∀ other, other ∈ moreQps.items ↔ other = cep ∨ other ∈ qps.items)) :
    conns.Detects cep remote result after ↔
      passes ∧ (conns.linked.HasQp remote → conns.linked.HasId remote) := by
  unfold Conns.Detects
  rw [idMap.items, qpMap.items, holds.idMap.items, holds.qpMap.items]
  rcases cases with ⟨stops, rfl⟩ | ⟨passes, sameIds, sameQps, other, held, rfl, linked, same⟩ |
    ⟨passes, fresh, rfl, inIds, inQps⟩
  · constructor
    · rintro ⟨free, duplicate, _⟩
      by_cases has : conns.linked.HasId remote ∨ conns.linked.HasQp remote
      · obtain ⟨_, _, found, _⟩ := duplicate has
        cases found
      · cases free (not_or.mp has)
    · exact fun holds => absurd holds.1 stops
  · have hasId : conns.linked.HasId remote := ⟨other, held, linked, same⟩
    constructor
    · exact fun _ => ⟨passes, fun _ => hasId⟩
    · refine fun _ => ⟨fun none => absurd hasId none.1, fun _ => ⟨other, held, rfl, linked, .inl same⟩, ?_⟩
      rw [if_neg (by simp)]
      exact ⟨sameIds, sameQps⟩
  · constructor
    · rintro ⟨_, duplicate, _⟩
      refine ⟨passes, fun hasQp => ?_⟩
      obtain ⟨_, _, found, _⟩ := duplicate (.inr hasQp)
      cases found
    · rintro ⟨_, only⟩
      refine ⟨fun _ => rfl, fun has => ?_, ?_⟩
      · exact absurd (has.elim id only) fresh
      · rw [if_pos rfl]
        exact ⟨inIds, inQps⟩

/-- In whatever state the maps are, `__insert_cep` returns, and it detects a duplicate as it
should if and only if the search by QPN stops nowhere and no CEP has the QPN and CA GUID
unless one has the communication ID and CA GUID too. -/
theorem Conns.Agree.insertAs (agree : conns.Agree) (unlinked : conns.linked cep = none)
    (here : conns.mgr.ceps cep = some kcep) (remote : Remote) (misread : Misread) :
    ∃ result mgr, insertAs conns.mgr cep remote misread = some (result, mgr) ∧
      (conns.Detects cep remote result mgr ↔
        conns.PassesQp remote misread ∧ (conns.linked.HasQp remote → conns.linked.HasId remote)) ∧
      Conns.Agree { mgr, linked := if result = .inserted then
        Function.update conns.linked cep (some remote) else conns.linked } := by
  obtain ⟨⟨ids, qps, holds⟩, cleared⟩ := agree
  have stored := holds.setCep unlinked (kcep.setRemote remote)
  have there : (conns.mgr.setCep cep (kcep.setRemote remote)).ceps cep =
      some (kcep.setRemote remote) := by simp [CepMgr.setCep]
  have run : Cep.insertAs conns.mgr cep remote misread =
      insertCep (conns.mgr.setCep cep (kcep.setRemote remote)) cep misread := by
    simp [Cep.insertAs, here]
  have clear : Conns.Cleared
      { conns with
        mgr := (conns.mgr.setCep cep (kcep.setRemote remote)).setCep cep
          { kcep.setRemote remote with remoteQpn := 0, remoteCommId := 0 } } :=
    cleared.change (congrArg _ (CepMgr.setCep_setCep ..)) (fun _ _ => rfl) fun _ => ⟨rfl, rfl⟩
  rcases stored.insertCep_cases unlinked there misread with
    ⟨stops, done⟩ | ⟨passes, other, held, connQpMap, rest, linked, same, done, qpMap, items⟩ |
    ⟨passes, fresh, connIdMap, connQpMap, moreIds, moreQps, done, linked, inIds, inQps⟩
  · refine ⟨.astray, _, run.trans done, ?_, ⟨ids, qps, ?_⟩, ?_⟩
    · exact holds.detects_iff holds.idMap holds.qpMap (.inl ⟨stops, rfl⟩)
    · exact stored.setCep unlinked _
    · exact clear
  · refine ⟨.stale other, _, run.trans done, ?_, ⟨ids, rest, ?_⟩, ?_⟩
    · exact holds.detects_iff (by exact holds.idMap) (by exact qpMap)
        (.inr (.inl ⟨passes, rfl, items, other, held, rfl, linked, same⟩))
    · exact (stored.setQpMap qpMap items).setCep unlinked _
    · exact clear
  · refine ⟨.inserted, _, run.trans done, ?_, ⟨moreIds, moreQps, linked⟩, ?_⟩
    · exact holds.detects_iff linked.idMap linked.qpMap (.inr (.inr ⟨passes, fresh, rfl, inIds, inQps⟩))
    · refine cleared.change rfl (fun _ apart => Function.update_of_ne apart ..) fun none => ?_
      cases (Function.update_self ..).symm.trans none

/-- Take a CEP out of a map it is in. -/
theorem removeMarked_erase {map : RbMap CepId} {tree : RbTree CepId} (holds : map.Holds tree)
    (inside : cep ∈ tree.items) {mark : UInt32} (marked : mark ≠ 0) :
    ∃ shorter rest, removeMarked map cep mark = some shorter ∧ shorter.Holds rest ∧
      rest.items = tree.items.erase cep := by
  rw [removeMarked, if_pos marked]
  exact holds.removeItem inside

/-- A CEP has been taken out of both maps. -/
theorem Conns.Holds.unlink (holds : conns.Holds ids qps) {fewerIds fewerQps : RbTree CepId}
    (idMap : connIdMap.Holds fewerIds) (qpMap : connQpMap.Holds fewerQps)
    (idItems : fewerIds.items = ids.items.erase cep)
    (qpItems : fewerQps.items = qps.items.erase cep) (value : Kcep) :
    Conns.Holds
      { mgr := { conns.mgr with connIdMap, connQpMap }.setCep cep value
        linked := Function.update conns.linked cep none } fewerIds fewerQps := by
  have isSome : ∀ {tree : RbTree CepId} other, tree.items.Nodup →
      (other ∈ tree.items ↔ (conns.linked other).isSome) →
      (other ∈ tree.items.erase cep ↔ (Function.update conns.linked cep none other).isSome) := by
    intro tree other nodup listed
    rw [nodup.mem_erase_iff, listed]
    by_cases equal : other = cep
    · simp [equal]
    · simp [equal]
  refine ⟨idMap, qpMap, fun other => ?_, fun other => ?_, fun other remote linked => ?_, ?_⟩
  · rw [idItems]
    exact isSome other holds.idMap.represents.nodup (holds.inIds other)
  · rw [qpItems]
    exact isSome other holds.qpMap.represents.nodup (holds.inQps other)
  · obtain ⟨-, ⟨⟩⟩ | ⟨apart, linked⟩ := update_cases linked
    obtain ⟨kcep, here, same⟩ := holds.known other remote linked
    exact ⟨kcep, by simp [CepMgr.setCep, apart, here], same⟩
  · rw [idItems]
    refine (holds.sorted.sublist erase_sublist).imp_of_mem fun {first second} one two before => ?_
    have nodup := holds.idMap.represents.nodup
    have apart := (nodup.mem_erase_iff.mp one).1
    have distinct := (nodup.mem_erase_iff.mp two).1
    simpa [CepMgr.read, CepMgr.setCep, apart, distinct] using before

/-- `__remove_cep` takes the CEP out of both maps, if its identifiers say that it is in
them. -/
theorem Conns.Agree.removeCep (agree : conns.Agree) (here : conns.mgr.ceps cep = some kcep)
    (marked : conns.Marked (.remove cep)) :
    ∃ mgr, removeCep conns.mgr cep = some mgr ∧
      Conns.Agree { mgr, linked := Function.update conns.linked cep none } := by
  obtain ⟨⟨ids, qps, holds⟩, cleared⟩ := agree
  suffices ∃ connIdMap connQpMap fewerIds fewerQps,
      removeMarked conns.mgr.connIdMap cep kcep.remoteCommId = some connIdMap ∧
      removeMarked conns.mgr.connQpMap cep kcep.remoteQpn = some connQpMap ∧
      connIdMap.Holds fewerIds ∧ connQpMap.Holds fewerQps ∧
      fewerIds.items = ids.items.erase cep ∧ fewerQps.items = qps.items.erase cep by
    obtain ⟨connIdMap, connQpMap, fewerIds, fewerQps, byId, byQpn, idMap, qpMap, idItems, qpItems⟩ := this
    refine ⟨{ conns.mgr with connIdMap, connQpMap }.setCep cep
      { kcep with remoteCommId := 0, remoteQpn := 0 }, ?_,
      ⟨fewerIds, fewerQps, holds.unlink idMap qpMap idItems qpItems _⟩, ?_⟩
    · simp [Cep.removeCep, here, byId, byQpn]
    · exact cleared.change rfl (fun _ apart => Function.update_of_ne apart ..) fun _ => ⟨rfl, rfl⟩
  cases linked : conns.linked cep with
  | none =>
    obtain ⟨noId, noQpn⟩ := cleared cep kcep linked here
    obtain ⟨notId, notQp⟩ := holds.outside linked
    refine ⟨_, _, ids, qps, by simp [removeMarked, noId], by simp [removeMarked, noQpn], holds.idMap,
      holds.qpMap, ?_, ?_⟩
    · rw [erase_of_not_mem notId]
    · rw [erase_of_not_mem notQp]
  | some remote =>
    obtain ⟨kept, same, rfl⟩ := holds.known cep remote linked
    obtain rfl : kcep = kept := some.inj (here.symm.trans same)
    obtain ⟨idMarked, qpMarked⟩ := marked kcep.peer linked
    have isSome := isSome_of_eq_some linked
    obtain ⟨_, _, byId, idMap, idItems⟩ :=
      removeMarked_erase holds.idMap ((holds.inIds cep).mpr isSome) idMarked
    obtain ⟨_, _, byQpn, qpMap, qpItems⟩ :=
      removeMarked_erase holds.qpMap ((holds.inQps cep).mpr isSome) qpMarked
    exact ⟨_, _, _, _, byId, byQpn, idMap, qpMap, idItems, qpItems⟩

end

/-! ### Runs -/

variable {conns : Conns}

theorem Conns.Initial.agree (initial : conns.Initial) : conns.Agree := by
  obtain ⟨⟨idMemory, ids⟩, ⟨qpMemory, qps⟩, none, zero⟩ := initial
  refine ⟨⟨.leaf, .leaf, ?_, ?_, ?_, ?_, ?_, ?_⟩, fun cep kcep _ => zero cep kcep⟩
  · rw [ids]
    exact rbmapInit_holds idMemory
  · rw [qps]
    exact rbmapInit_holds qpMemory
  · simp [none]
  · simp [none]
  · simp [none]
  · exact List.Pairwise.nil

theorem Conns.Agree.next {after : Conns} {call : ConnCall} (agree : conns.Agree)
    (marked : conns.Marked call) (taken : conns.next call = some after) : after.Agree := by
  cases call with
  | insert cep remote misread =>
    simp only [Conns.next] at taken
    split at taken
    case isFalse => cases taken
    case isTrue unlinked =>
      obtain ⟨⟨result, mgr⟩, done, ended⟩ := bind_eq_some_iff.mp taken
      obtain ⟨kcep, here, _⟩ := bind_eq_some_iff.mp done
      obtain ⟨_, _, same, _, agrees⟩ := agree.insertAs unlinked here remote misread
      cases same.symm.trans done
      cases ended
      exact agrees
  | remove cep =>
    obtain ⟨mgr, done, ended⟩ := bind_eq_some_iff.mp taken
    obtain ⟨kcep, here, _⟩ := bind_eq_some_iff.mp done
    obtain ⟨_, same, agrees⟩ := agree.removeCep here marked
    cases same.symm.trans done
    cases ended
    exact agrees

theorem agree_of_reachable (reachable : connMachine.Reachable Conns.Marked conns) : conns.Agree :=
  reachable.invariant (fun _ => Conns.Initial.agree) fun _ _ _ agree marked taken =>
    agree.next marked taken

/-- After any calls by which no CEP is taken out that was linked with an identifier of zero,
the CEPs in both maps are the linked ones; and then `__insert_cep` detects duplicates if and
only if the search by QPN, which does not read the QPNs, stops nowhere, and no linked CEP has
the QPN and CA GUID of the new one unless one has its communication ID and CA GUID. -/
theorem insertCep_detects_iff {conns : Conns}
    (reachable : connMachine.Reachable Conns.Marked conns) :
    (∀ cep, (cep ∈ rbmapItems conns.mgr.connIdMap ↔ (conns.linked cep).isSome) ∧
      (cep ∈ rbmapItems conns.mgr.connQpMap ↔ (conns.linked cep).isSome)) ∧
    ∀ cep kcep remote misread, conns.linked cep = none → conns.mgr.ceps cep = some kcep →
      ∃ result mgr, insertAs conns.mgr cep remote misread = some (result, mgr) ∧
        (conns.Detects cep remote result mgr ↔ conns.PassesQp remote misread ∧
          (conns.linked.HasQp remote → conns.linked.HasId remote)) := by
  have agree := agree_of_reachable reachable
  constructor
  · intro cep
    obtain ⟨ids, qps, holds⟩ := agree.1
    rw [holds.idMap.items, holds.qpMap.items]
    exact ⟨holds.inIds cep, holds.inQps cep⟩
  · intro cep kcep remote misread unlinked here
    obtain ⟨result, mgr, done, detects, _⟩ := agree.insertAs unlinked here remote misread
    exact ⟨result, mgr, done, detects⟩

/-- For the bytes that CEPs have and the QPNs that MADs carry, duplicates are detected if and
only if those by QPN are also duplicates by communication ID. -/
theorem insertCep_detects_iff_of_bytes (reachable : connMachine.Reachable Conns.Marked conns)
    {cep : CepId} {kcep : Kcep} {remote : Remote} {misread : Misread}
    (unlinked : conns.linked cep = none) (here : conns.mgr.ceps cep = some kcep)
    (flow : ∀ other, (conns.linked other).isSome → FlowBytes (misread other).1)
    (qpn : QpnBytes remote.qpn) :
    ∃ result mgr, insertAs conns.mgr cep remote misread = some (result, mgr) ∧
      (conns.Detects cep remote result mgr ↔
        (conns.linked.HasQp remote → conns.linked.HasId remote)) := by
  have agree := agree_of_reachable reachable
  obtain ⟨⟨ids, qps, holds⟩, _⟩ := id agree
  obtain ⟨place, search, ended⟩ := search_qpProbe ⟨qps, holds.qpMap, holds.inQps⟩ flow qpn
  have passes : conns.PassesQp remote misread := by
    rw [Conns.PassesQp, search]
    simp [ended]
  obtain ⟨result, mgr, done, detects, _⟩ := agree.insertAs unlinked here remote misread
  exact ⟨result, mgr, done, detects.trans (and_iff_right passes)⟩

/-! ### Two connections of one QP -/

/-- A manager with two new CEPs. -/
def twoCeps : Conns :=
  let memory : RbMap CepId := ⟨⟨fun _ _ => .nil, fun _ => .nil, fun _ => .black⟩, 0⟩
  { mgr := ((createCepMgr memory memory memory).setCep 0 (newKcep 1 (commId 1 1))).setCep 1
      (newKcep 2 (commId 2 1))
    linked := fun _ => none }

/-- The bytes that `__insert_by_qpn` takes for the CA GUID and the QPN of a CEP that sends
from port 1 to LID 3 without a GRH: they are in the address vector. -/
def avBytes : Misread := fun _ => (0, 0x0000000003000001)

theorem twoCeps_initial : twoCeps.Initial := by
  refine ⟨⟨_, rfl⟩, ⟨_, rfl⟩, rfl, fun cep kcep here => ?_⟩
  simp only [twoCeps, CepMgr.setCep] at here
  split at here
  · cases here
    exact ⟨rfl, rfl⟩
  split at here
  · cases here
    exact ⟨rfl, rfl⟩
  · cases here

/-- A second connection with the communication ID of the first is detected. -/
theorem insertCep_detects_second :
    ∃ conns result mgr, connMachine.Reachable Conns.Marked conns ∧
      conns.linked 0 = some ⟨1, 9, 5⟩ ∧
      insertAs conns.mgr 1 ⟨1, 9, 6⟩ avBytes = some (result, mgr) ∧
      conns.Detects 1 ⟨1, 9, 6⟩ result mgr := by
  obtain ⟨conns, reachable, first, second, stored, passes⟩ : ∃ conns,
      connMachine.Reachable Conns.Marked conns ∧
        conns.linked 0 = some ⟨1, 9, 5⟩ ∧ conns.linked 1 = none ∧ (conns.mgr.ceps 1).isSome ∧
        (rbmapSearch conns.mgr.connQpMap (qpProbe ⟨1, 9, 6⟩ avBytes)).any (·.item = rbmapEnd) = true :=
    Machine.reaches_of_any twoCeps_initial [.insert 0 ⟨1, 9, 5⟩ avBytes]
      ⟨trivial, fun _ _ => trivial⟩ (by decide +kernel)
  obtain ⟨kcep, here⟩ := isSome_iff_exists.mp stored
  obtain ⟨result, mgr, done, detects⟩ :=
    (insertCep_detects_iff reachable).2 1 kcep ⟨1, 9, 6⟩ avBytes second here
  exact ⟨conns, result, mgr, reachable, first, done,
    detects.mpr ⟨passes, fun _ => ⟨0, _, first, rfl, rfl⟩⟩⟩

/-- A second connection with the remote QP of the first is linked too. -/
theorem insertCep_misses_duplicate :
    ∃ conns mgr, connMachine.Reachable (fun _ _ => True) conns ∧
      conns.linked 0 = some ⟨1, 9, 5⟩ ∧ conns.linked 1 = none ∧
      insertAs conns.mgr 1 ⟨2, 9, 5⟩ avBytes = some (.inserted, mgr) ∧
      ¬ conns.Detects 1 ⟨2, 9, 5⟩ .inserted mgr := by
  obtain ⟨conns, reachable, first, second, linked⟩ : ∃ conns,
      connMachine.Reachable (fun _ _ => True) conns ∧
        conns.linked 0 = some ⟨1, 9, 5⟩ ∧ conns.linked 1 = none ∧
        (insertAs conns.mgr 1 ⟨2, 9, 5⟩ avBytes).map Prod.fst = some .inserted :=
    Machine.reaches_of_any twoCeps_initial [.insert 0 ⟨1, 9, 5⟩ avBytes]
      ⟨trivial, fun _ _ => trivial⟩ (by decide +kernel)
  obtain ⟨⟨_, mgr⟩, done, rfl⟩ := map_eq_some_iff.mp linked
  refine ⟨conns, mgr, reachable, first, second, done, ?_⟩
  rintro ⟨_, duplicate, _⟩
  obtain ⟨_, _, found, _⟩ := duplicate (.inr ⟨0, _, first, rfl, rfl⟩)
  cases found

end WinOFED.Cep
