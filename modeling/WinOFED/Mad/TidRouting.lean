import WinOFED.Mad.DispatchRuns

/-! Routing by transaction ID.

The dispatcher puts a client ID into the upper half of the transaction ID of a request
and takes it out of the response. `Tids` says what the transaction IDs of posted work
requests and of the requests on the wire are. -/
namespace WinOFED.Mad.Dispatch
open DispSys Transition Option

/-! ### Transaction IDs -/

variable (tid : UInt64)

theorem toNat_alSetAlTid (client : UInt32) :
    (alSetAlTid tid client).toNat = client.toNat * 2 ^ 32 + tid.toNat % 2 ^ 32 := by
  have small := client.toNat_lt
  simp only [alSetAlTid, Nat.toUInt64_eq, UInt64.toNat_ofNat']
  omega

theorem alGetAlTid_alSetAlTid (client : UInt32) : alGetAlTid (alSetAlTid tid client) = client := by
  have small := client.toNat_lt
  refine UInt32.toNat_inj.mp ?_
  simp only [alGetAlTid, Nat.toUInt32_eq, UInt32.toNat_ofNat', toNat_alSetAlTid]
  omega

theorem alSetAlTid_alSetAlTid (first second : UInt32) :
    alSetAlTid (alSetAlTid tid first) second = alSetAlTid tid second := by
  refine UInt64.toNat_inj.mp ?_
  rw [toNat_alSetAlTid, toNat_alSetAlTid, toNat_alSetAlTid]
  omega

theorem alSetAlTid_alGetAlTid : alSetAlTid tid (alGetAlTid tid) = tid := by
  have small := tid.toNat_lt
  refine UInt64.toNat_inj.mp ?_
  rw [toNat_alSetAlTid]
  simp only [alGetAlTid, Nat.toUInt32_eq, UInt32.toNat_ofNat']
  omega

/-- Clearing the access layer's half gives the user's transaction ID back if that half
was clear. -/
theorem alSetAlTid_zero_eq_iff : alSetAlTid tid 0 = tid ↔ alGetAlTid tid = 0 := by
  constructor
  · intro same
    rw [← same, alGetAlTid_alSetAlTid]
  · intro clear
    rw [← clear, alSetAlTid_alGetAlTid]

/-! ### Work requests and requests -/

variable {sys : DispSys}

/-- The transaction IDs of work requests and requests. -/
structure Tids (sys : DispSys) : Prop where
  idle : ∀ {id posted}, sys.wrs id = some posted → id ∉ sys.inFlight →
    posted.wr.hdr.transId = posted.userTid
  flying : ∀ {id posted}, sys.wrs id = some posted → id ∈ sys.inFlight →
    posted.wr.clientTid = posted.userTid
  requested : ∀ {request}, request ∈ sys.requests → request.svc < sys.nextSvc
  user : ∀ {request}, request ∈ sys.requests →
    alSetAlTid request.wireTid 0 = alSetAlTid request.userTid 0
  client : ∀ {request reg}, request ∈ sys.requests → request.apart = false →
    sys.regs request.svc = some reg → (alGetAlTid request.wireTid).toNat = reg

namespace Tids

/-- Registrations of other services change nothing for what has been posted. -/
theorem regs (tids : Tids sys) {after : DispSys} (wrs : after.wrs = sys.wrs)
    (inFlight : after.inFlight = sys.inFlight) (requests : after.requests = sys.requests)
    (grows : sys.nextSvc ≤ after.nextSvc)
    (old : ∀ svc reg, svc < sys.nextSvc → after.regs svc = some reg → sys.regs svc = some reg) :
    Tids after := by
  refine ⟨?_, ?_, ?_, ?_, ?_⟩
  · rw [wrs, inFlight]
    exact tids.idle
  · rw [wrs, inFlight]
    exact tids.flying
  · rw [requests]
    exact fun member => Nat.lt_of_lt_of_le (tids.requested member) grows
  · rw [requests]
    exact tids.user
  · rw [requests]
    exact fun member joined registered =>
      tids.client member joined (old _ _ (tids.requested member) registered)

theorem queue_transId (posted : Posted) (entry : MadReg) :
    alSetAlTid (posted.queue entry).wr.hdr.transId 0 = alSetAlTid posted.wr.hdr.transId 0 := by
  simp only [Posted.queue]
  split
  · rw [alSetAlTid_alSetAlTid, alSetAlTid_alSetAlTid]
  · rfl

theorem post (tids : Tids sys) {id reg : Nat} {entry : MadReg} {posted : Posted}
    (given : posted.wr.hdr.transId = posted.userTid)
    (slots : Slots sys) (registered : sys.regs posted.svc = some reg)
    (here : sys.disp.clientVector[reg]? = some entry) :
    Tids (sys.sent id reg entry (posted.queue entry) (sys.logged posted entry)) := by
  have index := slots.ids here
  have logged {request : Request} (member : request ∈ sys.logged posted entry) :
      (useTidRouting posted.wr.hdr true = true ∧
        request = ⟨posted.svc, posted.userTid, posted.wireTid entry, posted.apart⟩) ∨
        request ∈ sys.requests := by
    rw [logged] at member
    split at member
    next routed =>
      rcases List.mem_cons.mp member with rfl | old
      · exact .inl ⟨routed, rfl⟩
      · exact .inr old
    next => exact .inr member
  refine ⟨fun now idle => ?_, fun now flying => ?_, fun member => ?_, fun member => ?_,
    fun member joined also => ?_⟩
  · obtain ⟨rfl, ⟨⟩⟩ | ⟨different, old⟩ := update_cases now
    · exact absurd List.mem_cons_self idle
    · exact tids.idle old fun flying => idle (List.mem_cons_of_mem _ flying)
  · obtain ⟨rfl, ⟨⟩⟩ | ⟨different, old⟩ := update_cases now
    · exact given
    · exact tids.flying old ((List.mem_cons.mp flying).resolve_left different)
  · obtain ⟨-, rfl⟩ | old := logged member
    · exact slots.below registered
    · exact tids.requested old
  · obtain ⟨-, rfl⟩ | old := logged member
    · simp only [Posted.wireTid]
      split
      · rw [given]
      · rw [queue_transId, given]
    · exact tids.user old
  · obtain ⟨routed, rfl⟩ | old := logged member
    · obtain rfl := some.inj (registered.symm.trans also)
      simp only at joined
      rw [← index]
      simp only [Posted.wireTid, joined, Bool.false_eq_true, if_false, Posted.queue, routed, if_true]
      rw [alGetAlTid_alSetAlTid]
    · exact tids.client old joined also

theorem complete (tids : Tids sys) (slots : Slots sys) {id : Nat} {entry : MadReg}
    {posted : Posted} (flying : id ∈ sys.inFlight) (found : sys.wrs id = some posted) :
    Tids (sys.completed id entry posted.done) := by
  have left {other : Nat} : other ∈ sys.inFlight.erase id ↔ other ≠ id ∧ other ∈ sys.inFlight :=
    List.Nodup.mem_erase_iff slots.nodup
  refine ⟨fun now idle => ?_, fun now still => ?_, tids.requested, tids.user, tids.client⟩
  · obtain ⟨rfl, ⟨⟩⟩ | ⟨different, old⟩ := update_cases now
    · exact tids.flying found flying
    · exact tids.idle old fun flies => idle (left.mpr ⟨different, flies⟩)
  · obtain ⟨rfl, ⟨⟩⟩ | ⟨different, old⟩ := update_cases now
    · exact absurd rfl (left.mp still).1
    · exact tids.flying old (left.mp still).2

end Tids

theorem DispStep.tids {event : DispEvent} {after : DispSys} (step : DispStep sys event after)
    (slots : Slots sys) (tids : Tids sys) : Tids after := by
  cases step with
  | register svc env =>
    refine tids.regs rfl rfl rfl (Nat.le_succ _) fun service reg below now => ?_
    simpa [registered, below.ne] using now
  | deregister registered here dereg =>
    exact tids.regs rfl rfl rfl (Nat.le_refl _) fun _ _ _ now => now
  | @post event id reg entry posted shape idle registered here =>
    refine tids.post ?_ slots registered here
    cases shape with
    | send svc id hdr apart => rfl
    | resend found => exact tids.idle found idle
  | sendDone flying found here => exact tids.complete slots flying found
  | recv hdr => exact tids

theorem tids_of_reachable (reachable : dispMachine.Reachable LawfulDisp sys) : Tids sys := by
  induction reachable with
  | initial start =>
    cases start
    constructor <;> (intros; contradiction)
  | step reached lawful next tids =>
    obtain ⟨slots, owners⟩ := slots_owners_of_reachable reached
    obtain ⟨known, eq, step⟩ := next_step slots owners lawful
    cases eq.symm.trans next
    exact step.tids slots tids

/-! ### Receives and completions -/

/-- A received MAD goes to a registered service, if to any; a response to the one that sent
the request it answers, with the transaction ID that service's user gave. -/
def RecvRight (sys : DispSys) (hdr : MadHdr) : Prop :=
  ∀ svc delivered, madDispRecvDone sys.disp hdr = some (svc, delivered) →
    (sys.handles svc).isSome ∧
    (useTidRouting hdr false = true → ∃ request ∈ sys.requests,
      request.svc = svc ∧ request.wireTid = hdr.transId ∧ delivered.transId = request.userTid)

/-- The completion of a send goes to the service that posted it, with the transaction ID its
user gave. -/
def SendDoneRight (sys : DispSys) (id : Nat) : Prop :=
  ∃ posted disp wr, sys.wrs id = some posted ∧
    madDispSendDone sys.disp posted.wr = some (disp, wr, posted.svc) ∧
    wr.hdr.transId = posted.userTid

/-- A response to a request of a service that is registered, to which the dispatcher itself gave
its transaction ID and whose user left the upper half of it clear. -/
structure AnswersRewritten (sys : DispSys) (hdr : MadHdr) : Prop where
  answers : ∃ request ∈ sys.requests, request.wireTid = hdr.transId ∧ request.apart = false ∧
    (sys.handles request.svc).isSome ∧ alGetAlTid request.userTid = 0

variable {delivered hdr : MadHdr} {svc : Nat}

section
variable (received : madDispRecvDone sys.disp hdr = some (svc, delivered))
include received

/-- A MAD that is accepted goes to the service of an entry in use. -/
theorem madDispRecvDone_inv :
    ∃ reg entry, routeMad sys.disp hdr = some (reg, delivered) ∧
      sys.disp.clientVector[reg]? = some entry ∧ entry.refCnt ≠ 0 ∧ svc = entry.hMadSvc := by
  simp only [madDispRecvDone, bind_eq_bind, bind_eq_some_iff] at received
  obtain ⟨⟨reg, header⟩, routed, entry, here, accepted⟩ := received
  split at accepted
  next => cases accepted
  next used =>
    cases accepted
    exact ⟨reg, entry, routed, here, used, rfl⟩

/-- Where a response goes: to the service of the entry its client ID names. -/
theorem madDispRecvDone_response (response : useTidRouting hdr false = true) :
    ∃ entry, sys.disp.clientVector[(alGetAlTid hdr.transId).toNat]? = some entry ∧
      entry.refCnt ≠ 0 ∧ svc = entry.hMadSvc ∧ delivered.transId = alSetAlTid hdr.transId 0 := by
  obtain ⟨reg, entry, routed, here, used, service⟩ := madDispRecvDone_inv received
  rw [routeMad, if_pos response] at routed
  dsimp only at routed
  split at routed
  next => cases routed
  next =>
    cases routed
    exact ⟨entry, here, used, service, rfl⟩

/-- Where any other MAD goes: to the owner of its method. -/
theorem madDispRecvDone_unsolicited (unsolicited : ¬ useTidRouting hdr false = true) :
    ∃ version cls method reg entry, sys.disp.owner version cls method = some reg ∧
      sys.disp.clientVector[reg]? = some entry ∧ svc = entry.hMadSvc := by
  obtain ⟨reg, entry, routed, here, -, service⟩ := madDispRecvDone_inv received
  rw [routeMad, if_neg unsolicited] at routed
  obtain ⟨owner, owned, ended⟩ := map_eq_some_iff.mp routed
  cases ended
  exact ⟨_, _, _, reg, entry, owned, here, service⟩

end

theorem recvRight_of_answers (slots : Slots sys) (tids : Tids sys)
    (rewritten : AnswersRewritten sys hdr) (response : useTidRouting hdr false = true) :
    RecvRight sys hdr := by
  intro svc delivered received
  obtain ⟨request, member, wire, joined, registered, clear⟩ := rewritten.answers
  obtain ⟨reg, handle⟩ := isSome_iff_exists.mp registered
  obtain ⟨entry, here, -, rfl, cleared⟩ := madDispRecvDone_response received response
  obtain ⟨known, found, service⟩ := slots.slot handle
  rw [← wire, tids.client member joined (slots.reg handle)] at here
  obtain rfl := some.inj (found.symm.trans here)
  refine ⟨service.symm ▸ registered, fun _ => ⟨request, member, service.symm, wire, ?_⟩⟩
  rw [cleared, ← wire, tids.user member]
  exact (alSetAlTid_zero_eq_iff _).mpr clear

theorem recvRight_of_unsolicited (slots : Slots sys) (owners : Owners sys)
    (unsolicited : ¬ useTidRouting hdr false = true) : RecvRight sys hdr := by
  intro svc delivered received
  obtain ⟨version, cls, method, reg, entry, owned, here, rfl⟩ :=
    madDispRecvDone_unsolicited received unsolicited
  obtain ⟨-, svc, -, handle, -⟩ := owners.owned owned
  obtain ⟨known, found, service⟩ := slots.slot handle
  obtain rfl := some.inj (found.symm.trans here)
  exact ⟨by rw [service, handle]; rfl, fun impossible => absurd impossible unsolicited⟩

/-- A completion goes to the service of the registration that the send was posted through, with the
transaction ID its user gave. -/
theorem sendDoneRight_iff (slots : Slots sys) (tids : Tids sys) {id : Nat}
    (flying : id ∈ sys.inFlight) :
    ∃ posted, sys.wrs id = some posted ∧ (SendDoneRight sys id ↔ posted.holder = posted.svc) := by
  obtain ⟨posted, entry, found, here, service⟩ := slots.flight flying
  have done : madDispSendDone sys.disp posted.wr =
      some ((sys.completed id entry posted.done).disp, posted.done.wr, posted.holder) := by
    rw [← service]
    simp only [madDispSendDone, here, bind_eq_bind, bind_some]
    rfl
  refine ⟨posted, found, ?_, fun own => ⟨posted, _, _, found, own ▸ done, tids.flying found flying⟩⟩
  rintro ⟨known, disp, wr, there, told, -⟩
  obtain rfl := some.inj (found.symm.trans there)
  exact congrArg (·.2.2) (some.inj (done.symm.trans told))

/-- A get request and the response to it. -/
def sampleHdr (method : UInt8) (transId : UInt64) : MadHdr :=
  { baseVer := 1, mgmtClass := ibMclassSubnAdm, classVer := 2, method, status := 0, classSpec := 0
    transId, attrId := 0, resv := 0, attrMod := 0 }

/-- A service for no unsolicited MADs. -/
def plainSvc : MadSvc := ⟨ibMclassSubnAdm, 2, false, fun _ => false⟩

instance (sys : DispSys) (event : DispEvent) : Decidable (LawfulDisp sys event) := by
  cases event with
  | _ =>
    unfold LawfulDisp
    infer_instance

/-- Two services; the second sends a request. -/
def answeredEvents : List DispEvent :=
  [.register plainSvc sampleEnv, .register plainSvc sampleEnv, .send 1 0 (sampleHdr 1 5) false]

/-- A service sends a request and deregisters; another takes its place. -/
def staleEvents : List DispEvent :=
  [.register plainSvc sampleEnv, .send 0 0 (sampleHdr 1 5) false, .sendDone 0, .deregister 0,
    .register plainSvc sampleEnv]

end WinOFED.Mad.Dispatch
