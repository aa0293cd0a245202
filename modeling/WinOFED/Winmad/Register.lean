import Mathlib

/-! The registration of a user for MADs.

`WmRegister` acquires one resource after another. Each call that may fail is an input. -/
namespace WinOFED.Winmad

/-- What is held on behalf of a request. -/
inductive WmResource
  | memory | providerRef
  /-- The guarded mutex of the provider. -/
  | lock
  /-- A count that keeps devices from being removed. -/
  | removal
  | device | al | ca | pd | qp
deriving DecidableEq, Repr

/-- The statuses that the request returns. -/
inductive NtStatus
  | success | invalidBuffer | noMemory | badNetworkPath | noSuchDevice | invalidPortHandle
  | unsuccessful
deriving DecidableEq, Repr

/-- `WM_IO_REGISTER`. -/
structure WmIoRegister where
  qpn : Nat
  port : UInt8
  mgmtClass : UInt8
  methods : Vector UInt8 16

/-- The calls that succeed, and the device that is found. -/
structure WmCalls where
  buffers : Bool
  alloc : Bool
  /-- The port count of the device that `WmIbDeviceGet` gives. -/
  device : Option Nat
  openAl : Bool
  openCa : Bool
  allocPd : Bool
  getSplQp : Bool
  regMadSvc : Bool
  modifyCa : Bool
  /-- `IndexListInsertHead`. -/
  insert : Bool

/-- Release what is held; there is no result if it is not. -/
def undo (held : List WmResource) : List WmResource → Option (List WmResource)
  | [] => some held
  | resource :: rest => if resource ∈ held then undo (held.erase resource) rest else none

/-- `WmConvertMethods`. -/
def wmConvertMethods (methods : Vector UInt8 16) : Bool :=
  methods.any fun byte => (List.range 8).any fun bit => (byte >>> bit.toUInt8) &&& 1 != 0

/-- The port number is decremented as a byte. -/
def WmIoRegister.portIndex (attr : WmIoRegister) : Nat := (attr.port - 1).toNat

def WmIoRegister.isSm (attr : WmIoRegister) : Bool :=
  attr.mgmtClass == 0x81 && wmConvertMethods attr.methods

/-- What the labels of `WmRegInit` release, from `err5` on. -/
def wmErr5 : List WmResource := [.qp, .pd, .ca, .al, .device]

/-- `WmRegInit`. An error leaves `pDevice` null. -/
def wmRegInit (attr : WmIoRegister) (calls : WmCalls) (held : List WmResource) :
    Option (NtStatus × List WmResource) :=
  let fail (status : NtStatus) (held undone : List WmResource) : Option (NtStatus × List WmResource) :=
    (undo held undone).map (status, ·)
  if attr.qpn ≠ 0 ∧ attr.qpn ≠ 1 then some (.badNetworkPath, held)
  else match calls.device with
  | none => some (.noSuchDevice, held)
  | some portCount =>
    let device := .device :: held
    if attr.portIndex > portCount then fail .invalidPortHandle device (wmErr5.drop 4)
    else if calls.openAl = false then fail .unsuccessful device (wmErr5.drop 4)
    else if calls.openCa = false then fail .unsuccessful (.al :: device) (wmErr5.drop 3)
    else if calls.allocPd = false then fail .unsuccessful (.ca :: .al :: device) (wmErr5.drop 2)
    else if calls.getSplQp = false then
      fail .unsuccessful (.pd :: .ca :: .al :: device) (wmErr5.drop 1)
    else
      let whole := .qp :: .pd :: .ca :: .al :: device
      if calls.regMadSvc = false then fail .unsuccessful whole wmErr5
      else if attr.isSm = true ∧ calls.modifyCa = false then fail .unsuccessful whole wmErr5
      else some (.success, whole)

/-- `WmRegFree`: the remove handler does nothing without a device. -/
def wmRegFree (opened : Bool) (held : List WmResource) : Option (List WmResource) :=
  undo held ((if opened then wmErr5 else []) ++ [.providerRef, .memory])

/-- `WmRegister`, with the status the request is completed with. -/
def wmRegister (attr : WmIoRegister) (calls : WmCalls) : Option (NtStatus × List WmResource) :=
  if calls.buffers = false then some (.invalidBuffer, [])
  else if calls.alloc = false then some (.noMemory, [])
  else do
    let held ← undo [.removal, .lock, .providerRef, .memory] [.lock]
    let (status, held) ← wmRegInit attr calls held
    if status ≠ .success then
      let held ← wmRegFree false held
      let held ← undo held [.removal]
      some (status, held)
    else if calls.insert = false then
      let held ← wmRegFree true (.lock :: held)
      let held ← undo held [.removal]
      some (.noMemory, held)
    else
      let held ← undo (.lock :: held) [.lock, .removal]
      some (.success, held)

/-- The request fails and nothing is held, or the registration holds each of its resources once
and names a port of the device. -/
structure Settled (attr : WmIoRegister) (calls : WmCalls) (result : NtStatus × List WmResource) :
    Prop where
  failed : result.1 ≠ .success → result.2 = []
  registered : result.1 = .success → result.2 = wmErr5 ++ [.providerRef, .memory] ∧
    ∃ portCount, calls.device = some portCount ∧ attr.portIndex < portCount

/-- The request ends, and is settled. -/
def Registers (attr : WmIoRegister) (calls : WmCalls) : Prop :=
  ∃ result, wmRegister attr calls = some result ∧ Settled attr calls result

/-- Everything before the insertion into the index succeeds, for a device with `portCount` ports. -/
structure Opens (attr : WmIoRegister) (calls : WmCalls) (portCount : Nat) : Prop where
  qpn : attr.qpn = 0 ∨ attr.qpn = 1
  device : calls.device = some portCount
  port : attr.portIndex ≤ portCount
  openAl : calls.openAl = true
  openCa : calls.openCa = true
  allocPd : calls.allocPd = true
  getSplQp : calls.getSplQp = true
  regMadSvc : calls.regMadSvc = true
  sm : attr.isSm = true → calls.modifyCa = true

variable (attr : WmIoRegister) (calls : WmCalls)

/-- `WmRegInit` adds all its resources, or none. -/
theorem wmRegInit_eq (held : List WmResource) :
    ∃ status, wmRegInit attr calls held =
        some (status, if status = .success then wmErr5 ++ held else held) ∧
      (status = .success ↔ ∃ portCount, Opens attr calls portCount) := by
  unfold wmRegInit
  by_cases qpn : attr.qpn ≠ 0 ∧ attr.qpn ≠ 1
  · rw [if_pos qpn]
    exact ⟨_, rfl, iff_of_false nofun fun ⟨_, opens⟩ => by have := opens.qpn; tauto⟩
  rw [if_neg qpn]
  cases device : calls.device with
  | none => exact ⟨_, rfl, iff_of_false nofun fun ⟨_, opens⟩ => by simp [opens.device] at device⟩
  | some portCount =>
    have refuse {call : Bool} (failed : call = false)
        (needed : ∀ count, Opens attr calls count → call = true) :
        NtStatus.unsuccessful = .success ↔ ∃ count, Opens attr calls count :=
      iff_of_false nofun fun ⟨count, opens⟩ => by simp [needed count opens] at failed
    dsimp only
    split_ifs with port openAl openCa allocPd getSplQp regMadSvc sm
    · refine ⟨.invalidPortHandle, by simp [undo, wmErr5], iff_of_false nofun ?_⟩
      rintro ⟨other, opens⟩
      obtain rfl : other = portCount := Option.some.inj (opens.device.symm.trans device)
      exact absurd opens.port (Nat.not_le.mpr port)
    · exact ⟨.unsuccessful, by simp [undo, wmErr5], refuse openAl fun _ => Opens.openAl⟩
    · exact ⟨.unsuccessful, by simp [undo, wmErr5], refuse openCa fun _ => Opens.openCa⟩
    · exact ⟨.unsuccessful, by simp [undo, wmErr5], refuse allocPd fun _ => Opens.allocPd⟩
    · exact ⟨.unsuccessful, by simp [undo, wmErr5], refuse getSplQp fun _ => Opens.getSplQp⟩
    · exact ⟨.unsuccessful, by simp [undo, wmErr5], refuse regMadSvc fun _ => Opens.regMadSvc⟩
    · exact ⟨.unsuccessful, by simp [undo, wmErr5], refuse sm.2 fun _ opens => opens.sm sm.1⟩
    · rw [Bool.not_eq_false] at openAl openCa allocPd getSplQp regMadSvc
      refine ⟨.success, rfl, iff_of_true rfl ⟨portCount, by tauto, device, Nat.not_lt.mp port, openAl,
        openCa, allocPd, getSplQp, regMadSvc, fun isSm => ?_⟩⟩
      simpa [isSm] using sm

/-- What `WmRegister` makes of the status of `WmRegInit`: a failed insertion keeps the mutex. -/
theorem wmRegister_eq (buffers : calls.buffers = true) (alloc : calls.alloc = true) :
    ∃ status, (status = .success ↔ ∃ portCount, Opens attr calls portCount) ∧
      wmRegister attr calls = some (if status ≠ .success then (status, [])
        else if calls.insert = false then (.noMemory, [.lock])
        else (.success, wmErr5 ++ [.providerRef, .memory])) := by
  obtain ⟨status, init, opens⟩ := wmRegInit_eq attr calls [.removal, .providerRef, .memory]
  refine ⟨status, opens, ?_⟩
  rw [wmRegister, if_neg (by simp [buffers]), if_neg (by simp [alloc])]
  change (wmRegInit attr calls [.removal, .providerRef, .memory]).bind _ = _
  rw [init, Option.bind_some]
  by_cases success : status = .success
  · subst success
    cases calls.insert <;> rfl
  · simp only [success, if_false, ne_eq, not_false_eq_true, if_true]
    rfl

/-- A request is registered or leaves nothing behind, unless it gets to the index and the
insertion fails, or its port is one too high. -/
theorem registers_iff : Registers attr calls ↔
    (calls.buffers = true → calls.alloc = true → ∀ portCount, Opens attr calls portCount →
      calls.insert = true ∧ attr.portIndex < portCount) := by
  unfold Registers
  by_cases called : calls.buffers = true ∧ calls.alloc = true
  swap
  · refine iff_of_true ?_ fun buffers alloc => absurd ⟨buffers, alloc⟩ called
    unfold wmRegister
    cases buffers : calls.buffers with
    | false => exact ⟨_, rfl, fun _ => rfl, nofun⟩
    | true =>
      cases alloc : calls.alloc with
      | false => exact ⟨_, rfl, fun _ => rfl, nofun⟩
      | true => exact absurd ⟨buffers, alloc⟩ called
  obtain ⟨status, opens, result⟩ := wmRegister_eq attr calls called.1 called.2
  rw [forall_prop_of_true called.1, forall_prop_of_true called.2]
  simp only [result, Option.some.injEq, exists_eq_left']
  by_cases success : status = .success
  · obtain ⟨portCount, opened⟩ := opens.mp success
    rw [if_neg (not_not.mpr success)]
    cases calls.insert with
    | false =>
      refine iff_of_false (fun settled => ?_) fun all => nomatch (all portCount opened).1
      exact nomatch settled.failed nofun
    | true =>
      constructor
      · intro settled count opened
        obtain ⟨-, other, device, below⟩ := settled.registered rfl
        cases opened.device.symm.trans device
        exact ⟨rfl, below⟩
      · intro all
        exact ⟨fun failed => absurd rfl failed,
          fun _ => ⟨rfl, portCount, opened.device, (all portCount opened).2⟩⟩
  · rw [if_pos success]
    exact iff_of_true ⟨fun _ => rfl, fun same => absurd same success⟩ fun count opened =>
      absurd (opens.mpr ⟨count, opened⟩) success

/-- A request for the only port of a device, and one for the port behind it. -/
def sampleRequest (port : UInt8) : WmIoRegister := ⟨1, port, 4, .replicate 16 0⟩

def sampleCalls (insert : Bool) : WmCalls :=
  ⟨true, true, some 1, true, true, true, true, true, true, insert⟩

/-- The request for the port of the device is registered. -/
theorem sampleRequest_registers : Registers (sampleRequest 1) (sampleCalls true) :=
  (registers_iff ..).mpr fun _ _ _ opens => ⟨rfl, Option.some.inj opens.device ▸ Nat.zero_lt_one⟩

/-- There is no memory for a larger index: the request fails with the mutex held. -/
theorem sampleRequest_locked : wmRegister (sampleRequest 1) (sampleCalls false) =
    some (.noMemory, [.lock]) ∧ ¬ Registers (sampleRequest 1) (sampleCalls false) := by
  refine ⟨rfl, ?_⟩
  rintro ⟨_, ⟨⟩, settled⟩
  exact nomatch settled.failed nofun

end WinOFED.Winmad
