import UtxoVm.CoreVm.ExportedState

/-!
# What a result has paid for

A host function takes its cost from the fuel before it does anything, and fuel is never given back.
So what a result reports of the host calls is bounded by the gas that it reports.
-/

namespace UtxoVm

open RustStd Prog

/-! ## 1. What a guest has had done -/

/-- The lists of a host context. -/
structure HostEffects where
  events : List EventLog
  createdObjects : List CreatedObject
  stealthSettlements : List StealthSettlement
  mwebPegOuts : List StealthSettlement

def HostContext.effects (host : HostContext) : HostEffects where
  events := host.events
  createdObjects := host.createdObjects
  stealthSettlements := host.stealthSettlements
  mwebPegOuts := host.mwebPegOuts

def VmOutcome.effects (out : VmOutcome) : HostEffects where
  events := out.events
  createdObjects := out.createdObjects
  stealthSettlements := out.stealthSettlements
  mwebPegOuts := out.mwebPegOuts

/-- What the calls have cost that are to be seen in the lists. -/
def HostEffects.cost (e : HostEffects) : Nat :=
  hostEmitEventCost * e.events.length + hostCreateObjectCost * e.createdObjects.length +
    hostStealthSettleCost * e.stealthSettlements.length + hostMwebPegOutCost * e.mwebPegOuts.length

/-- A text out of guest memory ends at its first zero byte. -/
def GuestText (maxLen : Nat) (text : Bytes) : Prop := text.length ≤ maxLen ∧ 0 ∉ text

/-- The bounds that the host functions keep. -/
structure HostEffects.Bounded (e : HostEffects) : Prop where
  topics : ∀ event ∈ e.events, GuestText 64 event.topic
  codeHashes : ∀ object ∈ e.createdObjects, GuestText 64 object.codeHash
  initialStates : ∀ object ∈ e.createdObjects, object.initialState.length ≤ maxStateSize
  settled : ∀ settlement ∈ e.stealthSettlements, GuestText 128 settlement.stealthAddress
  peggedOut : ∀ pegOut ∈ e.mwebPegOuts, GuestText 128 pegOut.stealthAddress

/-- The fuel that is missing covers the calls, unless there is none left. -/
structure VmStore.Paid (maxGas : Nat) (s : VmStore) : Prop where
  fuel_le : s.fuel ≤ maxGas
  paid : s.fuel = 0 ∨ s.fuel + s.host.effects.cost ≤ maxGas
  bounded : s.host.effects.Bounded

/-- A result is within its gas, and its new state is the old one or fits the buffer. -/
structure VmOutcome.Accounted (config : VmConfig) (prior : Bytes) (out : VmOutcome) : Prop where
  gas_le : out.gasConsumed ≤ config.maxGas
  paid : min config.maxGas out.effects.cost ≤ out.gasConsumed
  bounded : out.effects.Bounded
  state : out.updatedStateData = prior ∨ out.updatedStateData.length ≤ maxStateSize

/-! ## 2. Host functions -/

theorem guestText_readGuestString (s : VmStore) (ptr maxLen : Nat) :
    GuestText maxLen (s.readGuestString ptr maxLen) := by
  constructor
  · have hprefix := List.takeWhile_prefix (l := (s.memory.drop ptr).take maxLen) (· ≠ 0)
    apply hprefix.length_le.trans
    rw [List.length_take]
    exact Nat.min_le_left _ _
  · intro hmem
    have hne := List.mem_takeWhile_imp hmem
    simp at hne

namespace VmStore

variable {maxGas : Nat} {s s' : VmStore}

/-- A step that uses `cost` fuel and adds no more than that to the bill. -/
theorem Paid.spend (h : s.Paid maxGas) (cost : Nat) (hfuel : s'.fuel = s.fuel - cost)
    (hcost : s'.host.effects.cost ≤ s.host.effects.cost + cost)
    (hbounded : s'.host.effects.Bounded) : s'.Paid maxGas := by
  have hle := h.fuel_le
  have hpaid := h.paid
  constructor
  · omega
  · -- `saturating_sub`: a cost that the fuel does not cover leaves 0
    omega
  · exact hbounded

/-- A step that leaves the host alone. -/
theorem Paid.keep (h : s.Paid maxGas) (cost : Nat) (hfuel : s'.fuel = s.fuel - cost)
    (hhost : s'.host = s.host) : s'.Paid maxGas := by
  apply h.spend cost hfuel
  · rw [hhost]
    exact Nat.le_add_right _ _
  · rw [hhost]
    exact h.bounded

theorem Paid.charge (h : s.Paid maxGas) (cost : Nat) : (s.charge cost).Paid maxGas :=
  h.keep cost rfl rfl

end VmStore

theorem HostCall.writeText_frame (text : Bytes) (outPtr : Int32) (s : VmStore) :
    (writeText text outPtr s).1.fuel = s.fuel ∧ (writeText text outPtr s).1.host = s.host := by
  unfold writeText VmStore.memoryWrite
  split
  · split
    · rename_i hwrite
      split at hwrite
      · cases hwrite
        exact ⟨rfl, rfl⟩
      · cases hwrite
    · exact ⟨rfl, rfl⟩
  · exact ⟨rfl, rfl⟩

namespace HostEffects

variable (e : HostEffects)

theorem cost_event (event : EventLog) :
    cost { e with events := e.events ++ [event] } = e.cost + hostEmitEventCost := by
  simp only [cost, List.length_append, List.length_singleton, Nat.mul_succ]
  omega

theorem cost_createdObject (object : CreatedObject) :
    cost { e with createdObjects := e.createdObjects ++ [object] } =
      e.cost + hostCreateObjectCost := by
  simp only [cost, List.length_append, List.length_singleton, Nat.mul_succ]
  omega

theorem cost_settlement (settlement : StealthSettlement) :
    cost { e with stealthSettlements := e.stealthSettlements ++ [settlement] } =
      e.cost + hostStealthSettleCost := by
  simp only [cost, List.length_append, List.length_singleton, Nat.mul_succ]
  omega

theorem cost_pegOut (pegOut : StealthSettlement) :
    cost { e with mwebPegOuts := e.mwebPegOuts ++ [pegOut] } = e.cost + hostMwebPegOutCost := by
  simp only [cost, List.length_append, List.length_singleton, Nat.mul_succ]
  omega

end HostEffects

/-- **A host function is paid for.** -/
theorem HostCall.perform_paid {maxGas : Nat} {s : VmStore} (call : HostCall) (h : s.Paid maxGas) :
    (call.perform s).1.Paid maxGas := by
  -- one case for each function of the linker; all but `abort` charge before they do anything
  cases call with
  | getCaller outPtr =>
    have hframe := writeText_frame (asBytes s.host.caller) outPtr (s.charge hostGetCallerCost)
    exact h.keep hostGetCallerCost hframe.1 hframe.2
  | getSatoshis => exact h.charge _
  | getSeal outPtr =>
    have hframe := writeText_frame (asBytes (sealText s.host.sealRef)) outPtr
      (s.charge hostGetSealCost)
    exact h.keep hostGetSealCost hframe.1 hframe.2
  | emitEvent topicPtr dataPtr len =>
    unfold perform
    dsimp only
    split
    · split
      · apply h.spend hostEmitEventCost
        · rfl
        · exact (HostEffects.cost_event s.host.effects _).le
        · exact { h.bounded with
            topics := List.forall_mem_append.mpr ⟨h.bounded.topics,
              List.forall_mem_singleton.mpr (guestText_readGuestString _ _ _)⟩ }
      · exact h.charge _
    · exact h.charge _
  | createObject codeHashPtr statePtr stateLen satoshis =>
    unfold perform
    dsimp only
    split
    · exact h.charge _
    · rename_i hlen
      split
      · split
        · rename_i initialState hread
          apply h.spend hostCreateObjectCost
          · rfl
          · exact (HostEffects.cost_createdObject s.host.effects _).le
          · -- the length is checked before guest memory is read
            have hsize : initialState.length ≤ maxStateSize := by
              unfold VmStore.memoryRead at hread
              split at hread
              · cases hread
                rw [List.length_take]
                exact (Nat.min_le_left _ _).trans (Nat.le_of_not_lt fun hlt ↦ hlen (.inr hlt))
              · cases hread
            exact { h.bounded with
              codeHashes := List.forall_mem_append.mpr ⟨h.bounded.codeHashes,
                List.forall_mem_singleton.mpr (guestText_readGuestString _ _ _)⟩
              initialStates := List.forall_mem_append.mpr ⟨h.bounded.initialStates,
                List.forall_mem_singleton.mpr hsize⟩ }
        · exact h.charge _
      · exact h.charge _
  | stealthSettle stealthAddrPtr satoshis =>
    unfold perform
    dsimp only
    split
    · apply h.spend hostStealthSettleCost
      · rfl
      · exact (HostEffects.cost_settlement s.host.effects _).le
      · exact { h.bounded with
          settled := List.forall_mem_append.mpr ⟨h.bounded.settled,
            List.forall_mem_singleton.mpr (guestText_readGuestString _ _ _)⟩ }
    · exact h.charge _
  | mwebPegOut stealthAddrPtr satoshis =>
    unfold perform
    dsimp only
    split
    · apply h.spend hostMwebPegOutCost
      · rfl
      · exact (HostEffects.cost_pegOut s.host.effects _).le
      · exact { h.bounded with
          peggedOut := List.forall_mem_append.mpr ⟨h.bounded.peggedOut,
            List.forall_mem_singleton.mpr (guestText_readGuestString _ _ _)⟩ }
    · exact h.charge _
  | abort => exact h

/-- **Guest code is paid for**, whatever it does. -/
theorem GuestCode.run_paid {α : Type} {maxGas : Nat} {s : VmStore} (code : GuestCode α)
    (h : s.Paid maxGas) : (code.run s).1.Paid maxGas := by
  -- on what is left to run, for any store: the invariant is all that a call leaves known of it
  induction code generalizing s with
  | ret a => exact h
  | trap message => exact h
  | step cost write next ih =>
    unfold run
    split
    · -- out of fuel: nothing more can be charged
      exact ⟨Nat.zero_le _, .inl rfl, h.bounded⟩
    · exact ih _ _ (h.keep cost rfl rfl)
  | host call next ih =>
    have hcall := call.perform_paid h
    unfold run
    split
    · rename_i hperform
      rw [hperform] at hcall
      exact ih _ hcall
    · rename_i hperform
      rw [hperform] at hcall
      exact hcall

/-! ## 3. Sessions -/

namespace Vm

variable {maxGas : Nat} {m : Module}

/-- Whatever the program does is paid for. -/
abbrev Pays {α : Type} (maxGas : Nat) (p : VmProg α) (Q : α → Prop) : Prop :=
  p.Ensures (VmStore.Paid maxGas) Q

theorem guestCall_pays {α : Type} (context : String) (code : GuestCode α) :
    Pays maxGas (guestCall context code) fun _ ↦ True := by
  intro s hs
  have hpaid := code.run_paid hs
  unfold guestCall
  rw [run_act]
  cases (code.run s).2 with
  | ok a => exact ⟨hpaid, fun _ _ ↦ trivial⟩
  | error message => exact ⟨hpaid, fun _ _ ↦ trivial⟩

theorem guestCallOrZero_pays (code : GuestCode Int32) :
    Pays maxGas (guestCallOrZero code) fun _ ↦ True :=
  (guestCall_pays "" code).attempt.bind fun _ _ ↦ .pure trivial

theorem writeMemory_pays (context : String) (ptr : Int32) (bytes : Bytes) :
    Pays maxGas (writeMemory context ptr bytes) fun _ ↦ True := by
  intro s hs
  unfold writeMemory
  rw [run_act]
  cases hwrite : s.memoryWrite (VmStore.usize ptr) bytes with
  | none => exact ⟨hs, fun _ _ ↦ trivial⟩
  | some s' =>
    unfold VmStore.memoryWrite at hwrite
    split at hwrite
    · cases hwrite
      exact ⟨hs.keep 0 (Nat.sub_zero _).symm rfl, fun _ _ ↦ trivial⟩
    · cases hwrite

theorem readMemory_pays (context : String) (ptr : Int32) (len : Nat) :
    Pays maxGas (readMemory context ptr len) fun bytes ↦ bytes.length ≤ len := by
  have hread : Pays maxGas (Prog.read (·.memoryRead (VmStore.usize ptr) len))
      fun bytes? ↦ ∀ bytes, bytes? = some bytes → bytes.length ≤ len := by
    apply Ensures.read
    intro s _ bytes hbytes
    unfold VmStore.memoryRead at hbytes
    split at hbytes
    · cases hbytes
      rw [List.length_take]
      exact Nat.min_le_left _ _
    · cases hbytes
  apply hread.bind
  intro bytes? hbytes
  cases bytes? with
  | none => exact .fail _
  | some bytes => exact .pure (hbytes bytes rfl)

theorem allocateGuest_pays (context : String) (size : Int32) :
    Pays maxGas (allocateGuest m context size) fun _ ↦ True := by
  unfold allocateGuest
  split
  · exact guestCall_pays _ _
  · exact .fail _

theorem deallocateGuest_pays (ptr size : Int32) :
    Pays maxGas (deallocateGuest m ptr size) fun _ ↦ True := by
  unfold deallocateGuest
  split
  · exact (guestCall_pays "" _).attempt.bind fun _ _ ↦ .pure trivial
  · exact .pure trivial

theorem instantiate_pays : Pays maxGas (instantiate m) fun _ ↦ True := by
  unfold instantiate
  split
  · exact .fail _
  · exact guestCall_pays _ _

/-- The buffer has room for a state of the largest size at most. -/
theorem stateBufSize_pays :
    Pays maxGas (stateBufSize m) fun size ↦ size.toInt ≤ maxStateSize := by
  unfold stateBufSize
  split
  · apply (guestCallOrZero_pays _).bind
    intro actual _
    apply Ensures.pure
    -- what the guest says of its size is cut to the cap
    split
    · show (if actual ≤ maxStateBuf then actual else maxStateBuf).toInt ≤ _
      split
      · rename_i hle
        exact Int32.le_iff_toInt_le.mp hle
      · decide
    · decide
  · exact .pure (by decide)

theorem readState_pays (texts : ReadTexts) (prior : Bytes) :
    Pays maxGas (readState m texts prior) fun data ↦ data = prior ∨ data.length ≤ maxStateSize := by
  unfold readState
  split
  · exact .pure (.inl rfl)
  · apply stateBufSize_pays.bind
    intro bufSize hsize
    apply (allocateGuest_pays _ _).bind
    intro stateOutPtr _
    apply (guestCallOrZero_pays _).bind
    intro len _
    have hread : Pays maxGas (readReported texts prior bufSize stateOutPtr len)
        fun data ↦ data = prior ∨ data.length ≤ maxStateSize := by
      unfold readReported
      split
      · -- the reported length fits the buffer
        rename_i hlen
        apply (readMemory_pays _ _ _).imp
        intro data hdata
        have hle := Int32.le_iff_toInt_le.mp hlen.2
        right
        omega
      · split
        · exact .fail _
        · exact .pure (.inl rfl)
    apply hread.bind
    intro data hdata
    exact (deallocateGuest_pays _ _).bind fun _ _ ↦ .pure hdata

/-- The result that is taken from a store that is paid for. -/
theorem outcome_accounted {config : VmConfig} {prior data : Bytes} {s : VmStore}
    (h : s.Paid config.maxGas) (hdata : data = prior ∨ data.length ≤ maxStateSize)
    (returnCode : Int32) : (outcome config returnCode data s).Accounted config prior where
  gas_le := Nat.sub_le _ _
  paid := by
    have hle := h.fuel_le
    have hpaid := h.paid
    show min config.maxGas s.host.effects.cost ≤ config.maxGas - s.fuel
    omega
  bounded := h.bounded
  state := hdata

theorem runInit_pays (initArgs : Bytes) : Pays maxGas (runInit m initArgs) fun _ ↦ True := by
  unfold runInit
  split
  · exact .pure trivial
  · dsimp only
    by_cases hempty : initArgs.isEmpty = true
    · simp only [if_pos hempty]
      exact (guestCall_pays _ _).bind fun _ _ ↦ .pure trivial
    · simp only [if_neg hempty]
      apply (allocateGuest_pays _ _).bind
      intro ptr _
      apply (writeMemory_pays _ _ _).bind
      intro _ _
      apply (guestCall_pays _ _).bind
      intro returnCode _
      exact (deallocateGuest_pays _ _).bind fun _ _ ↦ .pure trivial

theorem newStore_paid (config : VmConfig) (caller : String) (sealRef : SingleUseSeal)
    (satoshis : Nat) :
    (newStore m config (HostContext.new caller sealRef satoshis)).Paid config.maxGas where
  fuel_le := Nat.le_refl _
  paid := .inr (Nat.le_refl _)
  bounded := by
    constructor <;> intro _ hmem <;> exact absurd hmem List.not_mem_nil

theorem restoreState_pays (stateData : Bytes) :
    Pays maxGas (restoreState m stateData) fun _ ↦ True := by
  unfold restoreState
  split
  · exact .pure trivial
  · apply (allocateGuest_pays _ _).bind
    intro statePtr _
    apply (writeMemory_pays _ _ _).bind
    intro _ _
    have hdone (returnCode : Int32) : Pays maxGas (do
        deallocateGuest m statePtr (Int32.ofNat stateData.length)
        pure returnCode) fun _ ↦ True :=
      (deallocateGuest_pays _ _).bind fun _ _ ↦ .pure trivial
    dsimp only
    split
    · exact (guestCall_pays _ _).bind fun returnCode _ ↦ hdone returnCode
    · exact hdone 0

theorem restoreSession_pays (stateData args : Bytes) :
    Pays maxGas (restoreSession m stateData args) fun _ ↦ True := by
  unfold restoreSession
  apply instantiate_pays.bind
  intro _ _
  apply Ensures.bind (Q := fun _ ↦ True) (.ofExcept fun _ _ ↦ trivial)
  exact fun _ _ ↦ restoreState_pays stateData

theorem writeMethod_pays (method : String) : Pays maxGas (writeMethod m method) fun _ ↦ True := by
  unfold writeMethod
  split
  · apply (allocateGuest_pays _ _).bind
    intro ptr _
    exact (writeMemory_pays _ _ _).bind fun _ _ ↦ .pure trivial
  · exact .pure trivial

theorem writeArgs_pays (args : Bytes) : Pays maxGas (writeArgs m args) fun _ ↦ True := by
  unfold writeArgs
  split
  · exact .pure trivial
  · apply (allocateGuest_pays _ _).bind
    intro ptr _
    exact (writeMemory_pays _ _ _).bind fun _ _ ↦ .pure trivial

theorem callMethod_pays (method : String) (args : Bytes) :
    Pays maxGas (callMethod m method args) fun _ ↦ True := by
  unfold callMethod
  apply (writeMethod_pays method).bind
  rintro ⟨methodPtr, methodLen⟩ _
  apply (writeArgs_pays args).bind
  intro argsPtr _
  have hargs (returnCode : Int32) : Pays maxGas (do
      if args.isEmpty then pure () else deallocateGuest m argsPtr (Int32.ofNat args.length)
      pure returnCode) fun _ ↦ True := by
    dsimp only
    split
    · exact .pure trivial
    · exact (deallocateGuest_pays _ _).bind fun _ _ ↦ .pure trivial
  have hdone (returnCode : Int32) : Pays maxGas (do
      if methodPtr ≠ 0 then deallocateGuest m methodPtr methodLen else pure ()
      if args.isEmpty then pure () else deallocateGuest m argsPtr (Int32.ofNat args.length)
      pure returnCode) fun _ ↦ True := by
    dsimp only
    split
    · exact (deallocateGuest_pays _ _).bind fun _ _ ↦ hargs returnCode
    · exact hargs returnCode
  dsimp only
  split
  · exact (guestCall_pays _ _).bind fun returnCode _ ↦ hdone returnCode
  · exact hdone 0

theorem executeSession_pays (config : VmConfig) (method : String) (stateData args : Bytes) :
    Pays config.maxGas (executeSession m config method stateData args)
      (·.Accounted config stateData) := by
  unfold executeSession callSession
  apply Ensures.bind (Q := fun _ ↦ True)
  · exact (restoreSession_pays stateData args).bind fun _ _ ↦ callMethod_pays method args
  · intro returnCode _
    apply (readState_pays _ _).bind
    intro data hdata
    exact .read fun s hs ↦ outcome_accounted hs hdata returnCode

theorem deploySession_pays (config : VmConfig) (initArgs : Bytes) :
    Pays config.maxGas (deploySession m config initArgs) (·.Accounted config initArgs) := by
  unfold deploySession
  apply instantiate_pays.bind
  intro _ _
  dsimp only
  split
  · apply (runInit_pays initArgs).bind
    intro returnCode _
    apply (readState_pays _ _).bind
    intro data hdata
    apply Ensures.read
    intro s hs
    apply outcome_accounted hs
    -- an empty state is replaced by the arguments
    by_cases hempty : data.isEmpty = true
    · rw [if_pos hempty]
      exact .inl rfl
    · rw [if_neg hempty]
      right
      rcases hdata with rfl | hsize
      · exact absurd rfl hempty
      · exact hsize
  · exact .fail _

/-! ## 4. Results -/

/-- **What a result reports has been paid for.**  Whatever a contract does when it is deployed or
called: the gas of a result is within the limit and covers the host calls that the result reports,
unless it is all of the limit; texts and initial states that the host has read are within their
bounds; and the state is the one before the call, or what was given to the deploy, or of the largest
size at most. -/
theorem results_accounted (X : Crates) (engine : Engine) (config : VmConfig) :
    (∀ wasmBytes caller sealRef satoshis initArgs out,
      deploy engine config wasmBytes caller sealRef satoshis initArgs = .ok out →
      out.Accounted config initArgs) ∧
    ∀ wasmBytes state caller method args out,
      execute X engine config wasmBytes state caller method args = .ok out →
      out.Accounted config state.stateData := by
  constructor
  · intro wasmBytes caller sealRef satoshis initArgs out hout
    unfold deploy at hout
    cases hcompile : engine.compile wasmBytes with
    | error message =>
      rw [hcompile] at hout
      cases hout
    | ok m =>
      rw [hcompile] at hout
      exact (deploySession_pays config initArgs _ (newStore_paid config _ _ _)).2 out hout
  · intro wasmBytes state caller method args out hout
    unfold execute at hout
    split at hout
    · cases hout
    · cases hcompile : engine.compile wasmBytes with
      | error message =>
        rw [hcompile] at hout
        cases hout
      | ok m =>
        rw [hcompile] at hout
        exact (executeSession_pays config method state.stateData args _
          (newStore_paid config _ _ _)).2 out hout

/-- A call that emits one event. -/
theorem results_accounted_event :
    ∃ out, execute demoCrates (demoEngine (demoModule 0 demoGetState)) {} [] demoState "bob" "poke"
        [] = .ok out ∧ out.effects.cost = hostEmitEventCost ∧
      out.Accounted {} demoState.stateData := by
  have hrun : (execute demoCrates (demoEngine (demoModule 0 demoGetState)) {} [] demoState "bob"
      "poke" []).toOption.map (·.effects.cost) = some hostEmitEventCost := by decide
  cases hout : execute demoCrates (demoEngine (demoModule 0 demoGetState)) {} [] demoState "bob"
      "poke" [] with
  | error message =>
    rw [hout] at hrun
    cases hrun
  | ok out =>
    rw [hout] at hrun
    exact ⟨out, rfl, Option.some.inj hrun,
      (results_accounted demoCrates _ {}).2 _ _ _ _ _ _ hout⟩

end Vm

end UtxoVm
