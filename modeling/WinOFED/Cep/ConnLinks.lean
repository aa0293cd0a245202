import WinOFED.Cep.Protocol

/-! Which CEPs are in the connection maps.

A CEP is in `conn_id_map` if and only if it has a remote communication ID, and in
`conn_qp_map` if and only if it has a remote QPN. That is so as long as no REQ or REP gives
one that is zero, and no REP is refused for want of an agent. -/
namespace WinOFED.Cep
open Complib Transition CepMgr Kcep Option
variable {mgr mid after : CepMgr} {cep : CepId} {kcep : Kcep} {fault : Option Fault}

/-- A CEP has a remote communication ID. -/
def Kcep.hasId (kcep : Kcep) : Bool := kcep.remoteCommId ≠ 0

/-- A CEP has a remote QPN. -/
def Kcep.hasQpn (kcep : Kcep) : Bool := kcep.remoteQpn ≠ 0

/-- The maps hold the CEPs with remote identifiers, and a CEP without a remote end has none. -/
structure CepMgr.Linked (mgr : CepMgr) : Prop where
  ids : Marked mgr.connIdMap (mgr.view hasId)
  qpns : Marked mgr.connQpMap (mgr.view hasQpn)
  alone : ∀ cep kcep, mgr.ceps cep = some kcep → kcep.state.alone → kcep.remote = (0, 0)

/-- The faults that bring the maps out of step. -/
def linkFaults : List Fault := [.zeroReq, .zeroRep, .strayIdle]

namespace CepMgr.Linked

theorem view_congr {β : Type*} (ceps : after.ceps = mgr.ceps) (field : Kcep → β) :
    after.view field = mgr.view field := by
  funext id
  rw [view, view, ceps]

/-- A CEP changes, but not its remote identifiers. -/
theorem set {next : Kcep} (linked : mgr.Linked) (here : mgr.ceps cep = some kcep)
    (ceps : after.ceps = (mgr.setCep cep next).ceps)
    (maps : after.connIdMap = mgr.connIdMap ∧ after.connQpMap = mgr.connQpMap)
    (same : next.remote = kcep.remote)
    (alone : next.state.alone → kcep.state.alone ∨ kcep.remote = (0, 0)) : after.Linked where
  ids := by
    rw [maps.1, view_congr ceps, view_setCep_same here (by rw [hasId, hasId, (Prod.mk.inj same).1])]
    exact linked.ids
  qpns := by
    rw [maps.2, view_congr ceps, view_setCep_same here (by rw [hasQpn, hasQpn, (Prod.mk.inj same).2])]
    exact linked.qpns
  alone id value there lonely := by
    rw [ceps] at there
    obtain ⟨rfl, rfl⟩ | ⟨-, there⟩ := of_ceps_setCep there
    · rw [same]
      obtain was | zero := alone lonely
      · exact linked.alone id kcep here was
      · exact zero
    · exact linked.alone id value there lonely

/-- Whatever else changes. -/
theorem other (linked : mgr.Linked) (ceps : after.ceps = mgr.ceps)
    (maps : after.connIdMap = mgr.connIdMap ∧ after.connQpMap = mgr.connQpMap) : after.Linked where
  ids := by
    rw [maps.1, view_congr ceps]
    exact linked.ids
  qpns := by
    rw [maps.2, view_congr ceps]
    exact linked.qpns
  alone id value there := linked.alone id value (ceps ▸ there)

end CepMgr.Linked

/-! ### Taking a CEP out of the maps -/

/-- A CEP with a mark is taken out of a map with its mark. -/
theorem removeMarked_marked {map shorter : RbMap CepId} {marks : CepId → Option Bool}
    {remote : UInt32} (marked : Marked map marks) (mark : marks cep = some (decide (remote ≠ 0)))
    (removed : removeMarked map cep remote = some shorter) :
    Marked shorter (Function.update marks cep (some false)) := by
  unfold removeMarked at removed
  split at removed
  next linked =>
    have member : marks cep = some true := by simp [mark, linked]
    obtain ⟨expected, run, contains⟩ := RbMap.Contains.remove marked member
    rw [run, some.injEq] at removed
    subst removed
    exact Marked.clear (by simp) contains
  next unlinked =>
    cases removed
    exact marked.other (by simp [mark, not_not.mp unlinked]) (by simp)

theorem removeCep_linked (linked : mgr.Linked) (removed : removeCep mgr cep = some after) :
    after.Linked := by
  obtain ⟨kcep, connIdMap, connQpMap, here, byId, byQpn, rfl⟩ := removeCep_inv removed
  let cleared : Kcep := { kcep with remoteCommId := 0, remoteQpn := 0 }
  have view : ∀ {β : Type} (field : Kcep → β), ((mgr.setConn connIdMap connQpMap).setCep cep
      cleared).view field = Function.update (mgr.view field) cep (some (field cleared)) :=
    fun field => view_setCep (mgr.setConn connIdMap connQpMap) cep cleared field
  constructor
  · rw [view]
    exact removeMarked_marked linked.ids (view_of_ceps here hasId) byId
  · rw [view]
    exact removeMarked_marked linked.qpns (view_of_ceps here hasQpn) byQpn
  · intro id value there lonely
    obtain ⟨-, rfl⟩ | ⟨-, there⟩ := of_ceps_setCep there
    · rfl
    · exact linked.alone id value there lonely

/-! ### Entering a CEP in the maps -/

theorem insertByQpn_contains {member : CepId → Prop} {misread : Misread} {added : Bool}
    (contains : mgr.connQpMap.Contains member) (outside : ¬ member cep)
    (inserted : insertByQpn mgr cep kcep misread = some (added, after)) :
    after = { mgr with connQpMap := after.connQpMap } ∧
      (added = true ∧ after.connQpMap.Contains (fun other => other = cep ∨ member other) ∨
        added = false ∧ after.connQpMap = mgr.connQpMap) := by
  obtain ⟨place, search, outcome⟩ := contains.search fun entry =>
    sideOf <| (compare kcep.remoteQpn (misread entry).1).then (compare kcep.remoteCaGuid (misread entry).2)
  unfold insertByQpn at inserted
  rw [search] at inserted
  simp only [bind_eq_bind, bind_some] at inserted
  obtain ⟨item, stopped, _⟩ | ⟨ended, insert⟩ := outcome
  · rw [stopped] at inserted
    cases inserted
    exact ⟨rfl, .inr ⟨rfl, rfl⟩⟩
  · obtain ⟨grown, run, holds⟩ := insert cep outside
    rw [ended] at inserted
    simp only [rbmapEnd, run, bind_some] at inserted
    cases inserted
    exact ⟨rfl, .inl ⟨rfl, holds⟩⟩

theorem insertById_contains {member : CepId → Prop} {found : Option CepId}
    (contains : mgr.connIdMap.Contains member) (outside : ¬ member cep)
    (inserted : insertById mgr cep kcep = some (found, after)) :
    after = { mgr with connIdMap := after.connIdMap } ∧
      (found = none ∧ after.connIdMap.Contains (fun other => other = cep ∨ member other) ∨
        (∃ stale, found = some stale) ∧ after.connIdMap = mgr.connIdMap) := by
  obtain ⟨place, search, outcome⟩ := contains.search (idProbe mgr kcep.remoteCommId kcep.remoteCaGuid)
  unfold insertById at inserted
  rw [search] at inserted
  simp only [bind_eq_bind, bind_some] at inserted
  obtain ⟨item, stopped, _⟩ | ⟨ended, insert⟩ := outcome
  · rw [stopped] at inserted
    cases inserted
    exact ⟨rfl, .inr ⟨⟨item, rfl⟩, rfl⟩⟩
  · obtain ⟨grown, run, holds⟩ := insert cep outside
    rw [ended] at inserted
    simp only [rbmapEnd, run, bind_some] at inserted
    cases inserted
    exact ⟨rfl, .inl ⟨rfl, holds⟩⟩

/-- A CEP that is in none of the maps is in both after `__insert_cep`, or still in none. -/
theorem insertCep_contains {ids qpns : CepId → Prop} {misread : Misread} {result : Inserted}
    (byId : mgr.connIdMap.Contains ids) (byQpn : mgr.connQpMap.Contains qpns)
    (noId : ¬ ids cep) (noQpn : ¬ qpns cep)
    (inserted : insertCep mgr cep misread = some (result, after)) :
    result = .inserted ∧ after.connIdMap.Contains (fun other => other = cep ∨ ids other) ∧
        after.connQpMap.Contains (fun other => other = cep ∨ qpns other) ∨
      result ≠ .inserted ∧ after.connIdMap.Contains ids ∧ after.connQpMap.Contains qpns := by
  simp only [insertCep, bind_eq_bind, bind_eq_some_iff, Prod.exists] at inserted
  obtain ⟨kcep, here, added, first, qpn, inserted⟩ := inserted
  obtain ⟨frame, ⟨rfl, grown⟩ | ⟨rfl, same⟩⟩ := insertByQpn_contains byQpn noQpn qpn
  · simp only [if_true, bind_eq_some_iff, Prod.exists] at inserted
    obtain ⟨found, second, id, inserted⟩ := inserted
    have byId' : first.connIdMap.Contains ids := by
      rw [frame]
      exact byId
    obtain ⟨frame', ⟨rfl, larger⟩ | ⟨⟨stale, rfl⟩, still⟩⟩ := insertById_contains byId' noId id
    · cases inserted
      refine .inl ⟨rfl, larger, ?_⟩
      rw [frame']
      exact grown
    · obtain ⟨connQpMap, removed, inserted⟩ := bind_eq_some_iff.mp inserted
      cases inserted
      rw [frame'] at removed
      obtain ⟨shorter, run, contains⟩ := grown.remove (.inl rfl)
      rw [run, some.injEq] at removed
      subst removed
      refine .inr ⟨by rintro ⟨⟩, ?_, contains.congr fun other => ?_⟩
      · change second.connIdMap.Contains ids
        rw [still]
        exact byId'
      · constructor
        · rintro ⟨ne, equal | member⟩
          · exact absurd equal ne
          · exact member
        · intro member
          exact ⟨fun equal => noQpn (equal ▸ member), .inr member⟩
  · cases inserted
    refine .inr ⟨by rintro ⟨⟩, ?_, ?_⟩
    · change first.connIdMap.Contains ids
      rw [frame]
      exact byId
    · change first.connQpMap.Contains qpns
      rw [same]
      exact byQpn

section
variable (linked : mgr.Linked)
include linked

/-- `__insert_cep`, for a CEP that was given remote identifiers. -/
theorem insertCep_linked {saved : Kcep} {misread : Misread} {result : Inserted}
    (here : mgr.ceps cep = some kcep) (outside : kcep.remote = (0, 0))
    (given : result = .inserted → saved.remoteCommId ≠ 0 ∧ saved.remoteQpn ≠ 0 ∧ saved.state.alone = false)
    (inserted : insertCep (mgr.setCep cep saved) cep misread = some (result, after)) :
    after.Linked := by
  obtain ⟨noId, noQpn⟩ := Prod.mk.inj outside
  have idMark : mgr.view hasId cep = some false := by
    rw [view_of_ceps here, hasId, noId]
    rfl
  have qpnMark : mgr.view hasQpn cep = some false := by
    rw [view_of_ceps here, hasQpn, noQpn]
    rfl
  have contents := @insertCep_contains (mgr.setCep cep saved) after cep _ _ misread result
    linked.ids linked.qpns (by simp [idMark]) (by simp [qpnMark]) inserted
  obtain ⟨saved', connIdMap, connQpMap, stored, rfl⟩ := insertCep_inv inserted
  obtain rfl : saved = saved' := some.inj ((ceps_setCep_self mgr cep saved).symm.trans stored)
  -- what is stored in the CEP in the end
  obtain ⟨held, heldIs⟩ : ∃ held, held =
      if result = .inserted then saved else { saved with remoteQpn := 0, remoteCommId := 0 } := ⟨_, rfl⟩
  rw [← heldIs] at contents ⊢
  have ceps : (((mgr.setCep cep saved).setConn connIdMap connQpMap).setCep cep held).ceps =
      (mgr.setCep cep held).ceps := ceps_setCep_congr rfl held
  have view : ∀ {β : Type} (field : Kcep → β),
      (((mgr.setCep cep saved).setConn connIdMap connQpMap).setCep cep held).view field =
        Function.update (mgr.view field) cep (some (field held)) := by
    intro β field
    rw [Linked.view_congr ceps, view_setCep]
  have alone : ∀ other kcep,
      (((mgr.setCep cep saved).setConn connIdMap connQpMap).setCep cep held).ceps other = some kcep →
      (held.state.alone → held.remote = (0, 0)) → kcep.state.alone → kcep.remote = (0, 0) := by
    intro other value there own lonely
    rw [ceps] at there
    obtain ⟨-, rfl⟩ | ⟨-, there⟩ := of_ceps_setCep there
    · exact own lonely
    · exact linked.alone other value there lonely
  obtain ⟨success, byId, byQpn⟩ | ⟨failed, byId, byQpn⟩ := contents
  · obtain ⟨id, qpn, joined⟩ := given success
    rw [if_pos success] at heldIs
    subst heldIs
    refine ⟨?_, ?_, fun other value there => alone other value there fun lonely => ?_⟩
    · rw [view, hasId, decide_eq_true id]
      exact Marked.set byId
    · rw [view, hasQpn, decide_eq_true qpn]
      exact Marked.set byQpn
    · rw [joined] at lonely
      cases lonely
  · rw [if_neg failed] at heldIs
    subst heldIs
    refine ⟨?_, ?_, fun other value there => alone other value there fun _ => rfl⟩
    · rw [view]
      exact Marked.other byId (by simp [idMark]) (by simp [hasId])
    · rw [view]
      exact Marked.other byQpn (by simp [qpnMark]) (by simp [hasQpn])

/-! ### The moves -/

theorem queueMad_linked {sendContext1 : Option CepId}
    (queued : queueMad mgr cep sendContext1 = some after) : after.Linked := by
  obtain ⟨kcep, here, ⟨_, rfl⟩ | ⟨_, rfl⟩ | ⟨_, _, rfl⟩⟩ := queueMad_inv queued
  · exact linked
  · exact linked.set here rfl ⟨rfl, rfl⟩ rfl .inl
  · exact linked.set here rfl ⟨rfl, rfl⟩ rfl .inl

theorem createCep_linked {allocated grown : Bool} (sound : mgr.Sound)
    (created : createCep mgr allocated grown = some (cep, after)) : after.Linked := by
  obtain ⟨cid, size, free, rfl, _, rfl⟩ := createCep_inv created
  have fresh : ∀ {β : Type} (field : Kcep → β), mgr.view field mgr.nextCep = none := by
    intro β field
    rw [view, sound.fresh, map_none]
  constructor
  · rw [view_setCep]
    exact linked.ids.other (by simp [fresh]) (by simp [hasId, newKcep])
  · rw [view_setCep]
    exact linked.qpns.other (by simp [fresh]) (by simp [hasQpn, newKcep])
  · intro id value there lonely
    obtain ⟨-, rfl⟩ | ⟨-, there⟩ := of_ceps_setCep there
    · rfl
    · exact linked.alone id value there lonely

theorem freeCep_linked (here : mgr.ceps cep = some kcep) (remote : kcep.remote = (0, 0))
    (cid : Nat) : (mgr.freeCep cep cid).Linked := by
  obtain ⟨noId, noQpn⟩ := Prod.mk.inj remote
  constructor
  · rw [view_freeCep]
    refine linked.ids.other ?_ (by simp)
    rw [view_of_ceps here, hasId, noId]
    decide
  · rw [view_freeCep]
    refine linked.qpns.other ?_ (by simp)
    rw [view_of_ceps here, hasQpn, noQpn]
    decide
  · intro id value there lonely
    exact linked.alone id value (ite_none_left_eq_some.mp there).2 lonely

end

theorem Transmit.alone {before next : CepState} (transmit : Transmit fault before next)
    (lonely : next.alone) : before.alone := by
  cases transmit
  case req => rfl
  all_goals cases lonely

theorem CepState.alone_of_replying {state : CepState} (sent : state = .reqSent ∨ state = .reqMraRcvd) :
    state.alone := by
  rcases sent with rfl | rfl <;> rfl

theorem Move.linked (move : Move fault mgr after)
    (allowed : ∀ one, fault = some one → one ∉ linkFaults) (sound : mgr.Sound)
    (linked : mgr.Linked) : after.Linked := by
  cases move with
  | @turn _ _ cep kcep next here _ turn remote cut _ =>
    have same : next.remote = kcep.remote := by
      obtain same | ⟨was, zero⟩ := remote
      · exact same
      · rw [zero, linked.alone cep kcep here was]
    refine linked.set here rfl ⟨rfl, rfl⟩ same fun lonely => ?_
    obtain was | zero | stray := cut lonely
    · exact .inl was
    · exact .inr zero
    · exact absurd (by decide) (allowed _ stray)
  | unlink removed => exact removeCep_linked linked removed
  | refuse here _ | poll here _ | quiet here | release _ here =>
    exact linked.set here rfl ⟨rfl, rfl⟩ rfl .inl
  | transmit mad here transmit _ =>
    exact linked.set here rfl ⟨rfl, rfl⟩ rfl fun lonely => .inl (transmit.alone lonely)
  | park here _ | drepDestroy here _ | retire here _ _ _ _ | retireParked here _ _
  | hangUp here _ _ | hangUpDreq mad here _ _ => exact linked.set here rfl ⟨rfl, rfl⟩ rfl nofun
  | completeOther | renumber | getMad => exact linked.other rfl ⟨rfl, rfl⟩
  | complete _ here _ _ cut => exact linked.set here rfl ⟨rfl, rfl⟩ rfl cut
  | completeDreq _ here _ ending =>
    refine linked.set here rfl ⟨rfl, rfl⟩ rfl fun lonely => ?_
    obtain ⟨_, rfl⟩ | ⟨_, rfl⟩ := ending <;> cases lonely
  | enqueue _ queued | enqueueReq _ _ _ _ _ _ _ queued => exact queueMad_linked linked queued
  | create owner created here => exact (createCep_linked linked sound created).other rfl ⟨rfl, rfl⟩
  | unbind unbound =>
    obtain ⟨_, _, rfl⟩ := unbindCep_inv unbound
    exact linked.other rfl ⟨rfl, rfl⟩
  | linkReq here idle _ inserted valid =>
    have nonzero := Fault.not_of_when allowed (by decide)
    refine insertCep_linked linked here (linked.alone _ _ here (by rw [idle]; rfl)) (fun _ => ?_) inserted
    exact ⟨of_decide_eq_false nonzero, valid, rfl⟩
  | @linkRep _ cep kcep localCommId localCaGuid lclQpn _ mid _ here sent inserted cancelled =>
    have nonzero := of_decide_eq_false (Fault.not_of_when allowed (by decide))
    rw [not_or] at nonzero
    have middle : mid.Linked := insertCep_linked linked here
      (linked.alone _ _ here (CepState.alone_of_replying sent)) (fun _ => ⟨nonzero.1, nonzero.2, rfl⟩)
      inserted
    obtain ⟨_, there, rfl⟩ := update_eq_some.mp cancelled
    exact middle.set there rfl ⟨rfl, rfl⟩ rfl .inl
  | @bounceRep _ cep kcep localCommId localCaGuid lclQpn _ result mid _ here sent inserted failed
      restored =>
    have middle : mid.Linked := insertCep_linked linked here
      (linked.alone _ _ here (CepState.alone_of_replying sent)) (fun success => absurd success failed)
      inserted
    obtain ⟨_, ceps, _, _, cleared⟩ := insertCep_stored inserted
    obtain ⟨held, there, rfl⟩ := update_eq_some.mp restored
    refine middle.set there rfl ⟨rfl, rfl⟩ rfl fun _ => .inr ?_
    rw [ceps, ceps_setCep_self, some.injEq] at there
    exact there ▸ cleared failed
  | enter here idle _ _ =>
    exact linked.set here rfl ⟨rfl, rfl⟩ rfl fun _ => .inl (by rw [idle]; rfl)
  | leave here listening _ =>
    exact linked.set here rfl ⟨rfl, rfl⟩ rfl fun _ => .inl (by rw [listening]; rfl)
  | @free _ cep kcep _ here _ _ remote freed =>
    obtain ⟨kcep', _, rfl⟩ := destroyCep_inv freed
    have others : ({ mgr with timewaitList := mgr.timewaitList.erase cep } : CepMgr).Linked :=
      linked.other rfl ⟨rfl, rfl⟩
    exact freeCep_linked others here remote kcep'.cid

theorem createCepMgr_linked (listen connId connQp : RbMap CepId) :
    (createCepMgr listen connId connQp).Linked where
  ids := (rbmapInit_contains connId).congr fun _ => ⟨nofun, nofun⟩
  qpns := (rbmapInit_contains connQp).congr fun _ => ⟨nofun, nofun⟩
  alone := nofun

theorem linked_of_reachable (reachable : cepMachine.Reachable (Avoids linkFaults) mgr) :
    mgr.Sound ∧ mgr.Linked := by
  have invariant := @invariant_of_moves mgr Linked linkFaults createCepMgr_linked
    (fun move allowed sound linked => move.linked allowed sound linked) reachable
  exact ⟨invariant.1, invariant.2.2⟩

/-- In every state that is reached, the maps hold the CEPs with remote identifiers and no others. -/
theorem conn_maps_of_reachable (reachable : cepMachine.Reachable (Avoids linkFaults) mgr) :
    (∀ cep kcep, mgr.ceps cep = some kcep →
      (cep ∈ rbmapItems mgr.connIdMap ↔ kcep.remoteCommId ≠ 0) ∧
      (cep ∈ rbmapItems mgr.connQpMap ↔ kcep.remoteQpn ≠ 0)) ∧
    ∀ cep, mgr.ceps cep = none →
      cep ∉ rbmapItems mgr.connIdMap ∧ cep ∉ rbmapItems mgr.connQpMap := by
  obtain ⟨_, linked⟩ := linked_of_reachable reachable
  constructor
  · intro cep kcep here
    rw [linked.ids.mem_items, linked.qpns.mem_items, view_of_ceps here,
      view_of_ceps here]
    simp [hasId, hasQpn]
  · intro cep gone
    rw [linked.ids.mem_items, linked.qpns.mem_items, view, view, gone]
    simp

/-- A client listens for a service. -/
def listenEvent : CepEvent :=
  .call 0 1 (.listen ⟨⟨7, 3, none, 0, 0⟩, fun _ => 0, nofun⟩ true)

/-- A REQ for the service, with the sender's communication ID. -/
def reqEvent (localCommId : UInt32) : CepEvent :=
  .recv (.req ⟨localCommId, 1, 5, 0, ⟨7, 3, List.replicate reqPdataSize 0, rfl⟩⟩) .fine

/-- The REQ makes a CEP with the communication ID of its sender, by which the map has it. -/
theorem reqEvent_linked : ∃ mgr kcep,
    Machine.run next newMgr [.create 0 true true, listenEvent, reqEvent 9] = some mgr ∧
      mgr.ceps 1 = some kcep ∧ kcep.remoteCommId = 9 ∧ 1 ∈ rbmapItems mgr.connIdMap := by
  have careful : Machine.Guarded next (Avoids linkFaults) newMgr
      [.create 0 true true, listenEvent, reqEvent 9] := by
    decide +kernel
  obtain ⟨mgr, ended, stored⟩ : ∃ mgr,
      Machine.run next newMgr [.create 0 true true, listenEvent, reqEvent 9] = some mgr ∧
        (mgr.ceps 1).map (fun kcep => kcep.remoteCommId) = some 9 :=
    Machine.run_of_any (by decide +kernel)
  obtain ⟨kcep, here, id⟩ := map_eq_some_iff.mp stored
  have maps := (conn_maps_of_reachable (newMgr_reachable careful ended)).1 1 kcep here
  exact ⟨mgr, kcep, ended, here, id, maps.1.mpr (by rw [id]; decide)⟩

/-- A REQ with communication ID zero is accepted: the CEP is in the map and does not say so. -/
theorem reqEvent_zero_linked : ∃ mgr kcep, cepMachine.Reachable (Avoids []) mgr ∧
    mgr.ceps 1 = some kcep ∧ kcep.remoteCommId = 0 ∧ 1 ∈ rbmapItems mgr.connIdMap := by
  obtain ⟨mgr, run, stored, linked⟩ : ∃ mgr, cepMachine.Reachable (Avoids []) mgr ∧
      (mgr.ceps 1).map (fun kcep => kcep.remoteCommId) = some 0 ∧ 1 ∈ rbmapItems mgr.connIdMap :=
    Machine.reaches_of_any newMgr_initial [.create 0 true true, listenEvent, reqEvent 0]
      (by decide +kernel) (by decide +kernel)
  obtain ⟨kcep, here, id⟩ := map_eq_some_iff.mp stored
  exact ⟨mgr, kcep, run, here, id, linked⟩

end WinOFED.Cep
