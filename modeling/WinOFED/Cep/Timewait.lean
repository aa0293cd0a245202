import WinOFED.Cep.ConnLinks

/-! How CEPs leave timewait.

The list holds the CEPs in TIMEWAIT and DESTROY, each once. When the timer of a CEP without
sends and callbacks has expired, `__process_timewait` frees it if its owner has destroyed
it. Before that the CEP has the reference it was created with and stays in TIMEWAIT. -/
namespace WinOFED.Cep
open Complib Transition CepMgr Option List
variable {mgr after : CepMgr} {cep : CepId} {kcep : Kcep} {expired : CepId → Bool}

/-- The maps give up every CEP that they hold. -/
theorem removeMarked_defined {map : RbMap CepId} {marks : CepId → Option Bool} {remote : UInt32}
    (marked : Marked map marks) (mark : marks cep = some (decide (remote ≠ 0))) :
    ∃ shorter, removeMarked map cep remote = some shorter := by
  unfold removeMarked
  split
  next linked =>
    have member : marks cep = some true := by simp [mark, linked]
    obtain ⟨shorter, run, _⟩ := RbMap.Contains.remove marked member
    exact ⟨shorter, run⟩
  · exact ⟨map, rfl⟩

theorem removeCep_defined (linked : mgr.Linked) (here : mgr.ceps cep = some kcep) :
    ∃ cut, removeCep mgr cep = some cut := by
  obtain ⟨connIdMap, byId⟩ := removeMarked_defined linked.ids (view_of_ceps here Kcep.hasId)
  obtain ⟨connQpMap, byQpn⟩ := removeMarked_defined linked.qpns (view_of_ceps here Kcep.hasQpn)
  exact ⟨_, by simp [removeCep, here, byId, byQpn]; rfl⟩

/-- What is true of a manager while its timer runs. -/
structure CepMgr.Ready (mgr : CepMgr) : Prop where
  sound : mgr.Sound
  linked : mgr.Linked

theorem Moves.ready {possible : Fault → Prop} (moves : Moves possible mgr after)
    (ready : mgr.Ready) (avoided : ∀ one, possible one → one ∉ linkFaults) : after.Ready := by
  refine ⟨moves.sound ready.sound, moves.keeps ready.sound ?_ ready.linked⟩
  exact fun move allowed sound linked =>
    move.linked (fun one same => avoided one (allowed one same)) sound linked

/-- The CEP is freed: it is in no list any more. -/
structure CepMgr.Freed (after : CepMgr) (cep : CepId) : Prop where
  gone : after.ceps cep = none
  list : cep ∉ after.timewaitList

/-- The other CEPs stay as they are. -/
def CepMgr.Spares (mgr after : CepMgr) (cep : CepId) : Prop :=
  after.ceps cep = mgr.ceps cep ∧ (cep ∈ after.timewaitList ↔ cep ∈ mgr.timewaitList)

theorem CepMgr.Spares.refl : mgr.Spares mgr cep := ⟨rfl, .rfl⟩

theorem CepMgr.Spares.trans {mid : CepMgr} (first : mgr.Spares mid cep)
    (second : mid.Spares after cep) : mgr.Spares after cep :=
  ⟨second.1.trans first.1, second.2.trans first.2⟩

/-- The loop body for a CEP in the list. -/
theorem leaveTimewait_cases (ready : mgr.Ready) (listed : cep ∈ mgr.timewaitList)
    (here : mgr.ceps cep = some kcep) :
    ∃ after, leaveTimewait expired mgr cep = some after ∧ after.Ready ∧
      (∀ other ≠ cep, mgr.Spares after other) ∧
      (expired cep ∧ kcep.refCnt = 0 → after.Freed cep) ∧
      (¬ (expired cep ∧ kcep.refCnt = 0) → after = mgr) := by
  by_cases leaves : expired cep ∧ kcep.refCnt = 0
  · obtain ⟨finished, unused⟩ := leaves
    have destroyed := ready.sound.destroyed listed here unused
    obtain ⟨cut, removed⟩ := removeCep_defined ready.linked here
    have frame := removeCep_frame mgr cep mgr.sends mgr.callbacks (mgr.timewaitList.erase cep)
    rw [removed] at frame
    obtain ⟨kcep', connIdMap, connQpMap, there, _, _, rfl⟩ := removeCep_inv removed
    let cleared : Kcep := { kcep' with remoteCommId := 0, remoteQpn := 0 }
    let unlinked : CepMgr := { (mgr.setConn connIdMap connQpMap).setCep cep cleared with
      timewaitList := mgr.timewaitList.erase cep }
    have left : leaveTimewait expired mgr cep = some (unlinked.freeCep cep kcep'.cid) := by
      have stored : unlinked.ceps cep = some cleared := ceps_setCep_self ..
      have freed : destroyCep unlinked cep = some (unlinked.freeCep cep cleared.cid) := by
        simp only [destroyCep, stored, bind_eq_bind, bind_some]
        rfl
      simp only [leaveTimewait, here, finished, unused, destroyed, bind_eq_bind, bind_some,
        not_true_eq_false, if_false, ne_eq, if_true]
      exact (congrArg (bind · _) frame).trans freed
    have moves : Moves (fun _ => False) mgr (unlinked.freeCep cep kcep'.cid) :=
      (leaveTimewait_moves ready.sound listed left).1
    refine ⟨_, left, moves.ready ready (by rintro _ ⟨⟩), fun other ne => ⟨?_, ?_⟩, fun _ => ⟨?_, ?_⟩,
      fun stays => absurd ⟨finished, unused⟩ stays⟩
    · simp only [freeCep, if_neg ne]
      exact ceps_setCep_of_ne _ _ ne
    · exact mem_erase_of_ne ne
    · simp [freeCep]
    · exact ready.sound.timewait.nodup.not_mem_erase
  · refine ⟨mgr, ?_, ready, fun _ _ => .refl, fun both => absurd both leaves, fun _ => rfl⟩
    rw [not_and] at leaves
    by_cases finished : expired cep
    · simp [leaveTimewait, here, finished, leaves finished]
    · simp [leaveTimewait, here, finished]

/-- The loop, from any place in the list on. -/
theorem leaveTimewait_walk (list : List CepId) :
    list.Nodup → ∀ {mgr : CepMgr}, mgr.Ready → (∀ cep ∈ list, cep ∈ mgr.timewaitList) →
    ∃ after, list.foldlM (leaveTimewait expired) mgr = some after ∧ after.Ready ∧
      (∀ cep ∉ list, mgr.Spares after cep) ∧
      ∀ cep ∈ list, ∀ kcep, mgr.ceps cep = some kcep →
        (expired cep ∧ kcep.refCnt = 0 → after.Freed cep) ∧
        (¬ (expired cep ∧ kcep.refCnt = 0) → mgr.Spares after cep) := by
  induction list with
  | nil => exact fun _ mgr ready _ => ⟨mgr, rfl, ready, fun _ _ => .refl, nofun⟩
  | cons first rest ih =>
    intro nodup mgr ready listed
    obtain ⟨outside, nodup⟩ := nodup_cons.mp nodup
    have member := listed first (mem_cons_self ..)
    obtain ⟨kFirst, stored, _⟩ := map_eq_some_iff.mp ((ready.sound.timewait.listed first).mp member)
    obtain ⟨mid, left, ready', others, frees, stays⟩ :=
      @leaveTimewait_cases _ _ _ expired ready member stored
    have listed' : ∀ cep ∈ rest, cep ∈ mid.timewaitList := by
      intro cep inside
      have ne : cep ≠ first := fun same => outside (same ▸ inside)
      exact (others cep ne).2.mpr (listed cep (mem_cons_of_mem _ inside))
    obtain ⟨after, walked, ready'', spared, each⟩ := ih nodup ready' listed'
    refine ⟨after, ?_, ready'', fun cep not => ?_, fun cep inside kcep here => ?_⟩
    · rw [foldlM_cons, left]
      exact walked
    · rw [mem_cons, not_or] at not
      exact (others cep not.1).trans (spared cep not.2)
    · obtain rfl | inside := mem_cons.mp inside
      · obtain rfl : kFirst = kcep := some.inj (stored.symm.trans here)
        have still := spared cep outside
        constructor
        · intro leaves
          obtain ⟨gone, list⟩ := frees leaves
          exact ⟨still.1.trans gone, mt still.2.mp list⟩
        · intro remains
          rw [stays remains] at still
          exact still
      · have ne : cep ≠ first := fun same => outside (same ▸ inside)
        obtain ⟨freed, remained⟩ := each cep inside kcep ((others cep ne).1.trans here)
        exact ⟨freed, fun remains => (others cep ne).trans (remained remains)⟩

/-- What the end of timewait is to do with a CEP. -/
structure CepMgr.Exits (after : CepMgr) (cep : CepId) (kcep : Kcep) : Prop where
  idle : kcep.state = .timewait → ∃ next, after.ceps cep = some next ∧ next.state = .idle
  freed : kcep.state = .destroy → after.ceps cep = none
  list : cep ∉ after.timewaitList
  maps : cep ∉ rbmapItems after.connIdMap ∧ cep ∉ rbmapItems after.connQpMap

/-- A CEP without sends and callbacks has only the reference of its owner. -/
theorem CepMgr.Sound.refCnt_eq (sound : mgr.Sound) (here : mgr.ceps cep = some kcep)
    (unsent : ∀ mad, (mad, cep) ∉ mgr.sends) (uncalled : cep ∉ mgr.callbacks) :
    kcep.refCnt = if kcep.state.cleaned then 0 else 1 := by
  have counted := sound.refs.counted (view_of_ceps here _)
  have noSends : (mgr.sends.map Prod.snd).count cep = 0 := by
    refine count_eq_zero.mpr fun member => ?_
    obtain ⟨⟨mad, _⟩, sent, rfl⟩ := mem_map.mp member
    exact unsent mad sent
  have noCalls : mgr.callbacks.count cep = 0 := count_eq_zero.mpr uncalled
  simp only [RefBook.taken, refBook, noSends, noCalls] at counted
  simpa using counted

/-- In every state that is reached, the list holds the CEPs in TIMEWAIT and DESTROY, each once; and
when the timer runs, a CEP whose time is over and that nobody uses leaves the list as it should if
and only if it is not in TIMEWAIT. -/
theorem timewait_of_reachable (reachable : cepMachine.Reachable (Avoids linkFaults) mgr) :
    mgr.timewaitList.Nodup ∧
    (∀ cep, cep ∈ mgr.timewaitList ↔
      ∃ kcep, mgr.ceps cep = some kcep ∧ (kcep.state = .timewait ∨ kcep.state = .destroy)) ∧
    ∀ expired, ∃ after, processTimewait mgr expired = some after ∧
      ∀ cep kcep, mgr.ceps cep = some kcep → kcep.state = .timewait ∨ kcep.state = .destroy →
        expired cep = true → (∀ mad, (mad, cep) ∉ mgr.sends) → cep ∉ mgr.callbacks →
        (after.Exits cep kcep ↔ kcep.state ≠ .timewait) := by
  obtain ⟨sound, linked⟩ := linked_of_reachable reachable
  have listed : ∀ cep, cep ∈ mgr.timewaitList ↔
      ∃ kcep, mgr.ceps cep = some kcep ∧ (kcep.state = .timewait ∨ kcep.state = .destroy) := by
    intro cep
    have parked : ∀ state : CepState, state.parked = true ↔ state = .timewait ∨ state = .destroy := by
      intro state
      cases state <;> decide
    rw [sound.timewait.listed, view, map_eq_some_iff]
    simp only [parked]
  refine ⟨sound.timewait.nodup, listed, fun expired => ?_⟩
  obtain ⟨after, processed, ready, _, each⟩ := @leaveTimewait_walk expired mgr.timewaitList
    sound.timewait.nodup mgr ⟨sound, linked⟩ fun _ member => member
  refine ⟨after, processed, fun cep kcep here parked finished unsent uncalled => ?_⟩
  have refCnt := sound.refCnt_eq here unsent uncalled
  obtain ⟨frees, stays⟩ := each cep ((listed cep).mpr ⟨kcep, here, parked⟩) kcep here
  obtain was | was := parked
  · have still := stays fun leaves => by
      rw [was] at refCnt
      rw [refCnt] at leaves
      exact absurd leaves.2 (by decide)
    refine iff_of_false (fun exits => ?_) (fun other => other was)
    exact exits.list (still.2.mpr ((listed cep).mpr ⟨kcep, here, .inl was⟩))
  · rw [was] at refCnt
    obtain ⟨gone, list⟩ := frees ⟨finished, refCnt⟩
    have unmarked : ∀ {β : Type} (field : Kcep → β), after.view field cep = none := by
      intro β field
      rw [view, gone, map_none]
    refine iff_of_true ⟨?_, fun _ => gone, list, ?_, ?_⟩ (by rw [was]; decide)
    · rw [was]
      rintro ⟨⟩
    · rw [ready.linked.ids.mem_items, unmarked]
      rintro ⟨⟩
    · rw [ready.linked.qpns.mem_items, unmarked]
      rintro ⟨⟩

/-- A CEP is created and destroyed. -/
def destroyedEvents : List CepEvent :=
  [.create 0 true true, .call 0 1 (.destroy false fun _ => .fine)]

/-- The sweep frees the CEP. -/
theorem destroyedEvents_freed : ∃ mgr kcep after,
    Machine.run next newMgr destroyedEvents = some mgr ∧ mgr.ceps 0 = some kcep ∧
      processTimewait mgr (fun _ => true) = some after ∧ after.Exits 0 kcep := by
  have careful : Machine.Guarded next (Avoids linkFaults) newMgr destroyedEvents := by
    decide +kernel
  obtain ⟨mgr, ended, stored, sends, callbacks⟩ : ∃ mgr,
      Machine.run next newMgr destroyedEvents = some mgr ∧
        (mgr.ceps 0).map (fun kcep => kcep.state) = some .destroy ∧ mgr.sends = [] ∧
        mgr.callbacks = [] :=
    Machine.run_of_any (by decide +kernel)
  obtain ⟨kcep, here, state⟩ := map_eq_some_iff.mp stored
  obtain ⟨after, processed, each⟩ :=
    (timewait_of_reachable (newMgr_reachable careful ended)).2.2 fun _ => true
  refine ⟨mgr, kcep, after, ended, here, processed, ?_⟩
  exact (each 0 kcep here (.inr state) rfl (by simp [sends]) (by simp [callbacks])).mpr
    (by rw [state]; decide)

/-- A connection is established and rejected by the other side; then every send and every
callback ends. -/
def rejectedEvents : List CepEvent :=
  [.create 0 true true, .call 0 1 (.preReq 7 5 .usable .fine), .call 0 1 (.sendReq .fine),
   .recv (.rep 9 0x02000001 1 3) .fine, .call 0 1 (.rtu .fine),
   .recv (.rej 9 0x02000001 1 0 0) .fine, .sendDone 0 0, .callbackDone 0, .callbackDone 0]

/-- The timer runs, and the CEP stays in TIMEWAIT. -/
theorem rejectedEvents_stuck : ∃ mgr after, cepMachine.Reachable (Avoids []) mgr ∧
    (mgr.ceps 0).map (fun kcep => kcep.state) = some .timewait ∧ mgr.sends = [] ∧
    mgr.callbacks = [] ∧ processTimewait mgr (fun _ => true) = some after ∧
    (after.ceps 0).map (fun kcep => kcep.state) = some .timewait ∧ 0 ∈ after.timewaitList := by
  obtain ⟨mgr, run, state, sends, callbacks, processed⟩ : ∃ mgr,
      cepMachine.Reachable (Avoids []) mgr ∧
        (mgr.ceps 0).map (fun kcep => kcep.state) = some .timewait ∧ mgr.sends = [] ∧
        mgr.callbacks = [] ∧
        (processTimewait mgr fun _ => true).map (fun after =>
          ((after.ceps 0).map (fun kcep => kcep.state), decide (0 ∈ after.timewaitList))) =
          some (some .timewait, true) :=
    Machine.reaches_of_any newMgr_initial rejectedEvents (by decide +kernel) (by decide +kernel)
  obtain ⟨after, processed, facts⟩ := map_eq_some_iff.mp processed
  obtain ⟨still, listed⟩ := Prod.mk.inj facts
  exact ⟨mgr, after, run, state, sends, callbacks, processed, still, of_decide_eq_true listed⟩

end WinOFED.Cep
