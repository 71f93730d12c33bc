import UtxoVm.CoreVm.Fixture

/-!
# What a fixture replay threads

A call finds the first object with its id, and a deploy always appends.  As long as no id is
deployed twice, the object that a call finds is the one that the last operation on the id left, and
the root is over the last state of each id.
-/

namespace UtxoVm

open RustStd

/-! ## 1. What threading means -/

/-- The last of the effects that left an object with the id. -/
def lastLeft (objectId : String) (effects : List FixtureEffect) : Option FixtureObject :=
  Keyed.lookup FixtureObject.objectId objectId (effects.map FixtureEffect.left).reverse

/-- Every call runs the code and the state that the last operation on the object before it left. -/
def Threaded (effects : List FixtureEffect) : Prop :=
  ∀ before prior object after, effects = before ++ .called prior object :: after →
    lastLeft object.objectId before = some prior

/-- One pair per id that was left, with the state that was left last. -/
structure OnePerId (effects : List FixtureEffect) (states : List (String × Bytes)) : Prop where
  ids_nodup : (states.map (·.1)).Nodup
  last_state : ∀ objectId state, (objectId, state) ∈ states ↔
    ∃ object, lastLeft objectId effects = some object ∧ object.stateData = state

section

variable (X : Crates) (host : FixtureHost)

/-- The effects of the operations one after the other, and the objects that they leave. -/
inductive Replayed : List FixtureOp → List FixtureEffect → List FixtureObject → Prop
  | start : Replayed [] [] []
  | step {ops : List FixtureOp} {effects : List FixtureEffect} {objects : List FixtureObject}
      {op : FixtureOp} {effect : FixtureEffect} {gas : Nat} (past : Replayed ops effects objects)
      (now : replayOp X host ops.length op objects = .ok (effect, gas)) :
      Replayed (ops ++ [op]) (effects ++ [effect]) (effect.apply objects)

/-- The id that an operation deploys, if it is a deploy: the one it gives, or else the code hash. -/
def FixtureOp.deployId (op : FixtureOp) : Option String :=
  if op.opType = "deploy" then
    op.objectId.or ((op.wasmHex.bind hexDecode).map (Vm.calculateCodeHash X))
  else none

end

variable {X : Crates} {host : FixtureHost}

/-! ## 2. One operation -/

theorem orError_eq_ok {α : Type} {message : String} {o : Option α} {a : α}
    (h : orError message o = .ok a) : o = some a := by
  cases o with
  | none => cases h
  | some b => exact congrArg some (Except.ok.inj h)

theorem hexToBytes_eq_ok {s : String} {bytes : Bytes} (h : hexToBytes host s = .ok bytes) :
    hexDecode s = some bytes := by
  unfold hexToBytes at h
  cases hdecode : hexDecode s with
  | none =>
    rw [hdecode] at h
    cases h
  | some b =>
    rw [hdecode] at h
    exact congrArg some (Except.ok.inj h)

/-- The new object has the id of the operation. -/
theorem replayDeploy_objectId {i : Nat} {op : FixtureOp} {object : FixtureObject} {gas : Nat}
    (htype : op.opType = "deploy") (h : replayDeploy X host i op = .ok (object, gas)) :
    op.deployId X = some object.objectId := by
  unfold replayDeploy at h
  obtain ⟨wasmHex, hhex, h⟩ := bind_eq_ok h
  obtain ⟨wasm, hwasm, h⟩ := bind_eq_ok h
  obtain ⟨initArgs, -, h⟩ := bind_eq_ok h
  obtain ⟨res, -, h⟩ := bind_eq_ok h
  cases h
  unfold FixtureOp.deployId
  rw [if_pos htype, orError_eq_ok hhex, Option.bind_some, hexToBytes_eq_ok hwasm, Option.map_some]
  cases op.objectId <;> rfl

/-- The object keeps its id and its code. -/
theorem replayCall_keeps {i : Nat} {op : FixtureOp} {prior object : FixtureObject} {gas : Nat}
    (h : replayCall X host i op prior = .ok (object, gas)) :
    object.objectId = prior.objectId ∧ object.wasm = prior.wasm := by
  unfold replayCall at h
  obtain ⟨args, -, h⟩ := bind_eq_ok h
  obtain ⟨method, -, h⟩ := bind_eq_ok h
  obtain ⟨res, -, h⟩ := bind_eq_ok h
  cases h
  exact ⟨rfl, rfl⟩

/-- An operation deploys an object with its own id, or calls the object that is found. -/
theorem replayOp_cases {i : Nat} {op : FixtureOp} {objects : List FixtureObject}
    {effect : FixtureEffect} {gas : Nat} (h : replayOp X host i op objects = .ok (effect, gas)) :
    (∃ object, effect = .deployed object ∧ op.deployId X = some object.objectId) ∨
      ∃ prior object, effect = .called prior object ∧ op.deployId X = none ∧
        object.objectId = prior.objectId ∧
        Keyed.lookup FixtureObject.objectId object.objectId objects = some prior := by
  unfold replayOp at h
  by_cases hdeploy : op.opType = "deploy"
  · rw [if_pos hdeploy] at h
    obtain ⟨⟨object, used⟩, hobject, h⟩ := bind_eq_ok h
    cases h
    exact .inl ⟨object, rfl, replayDeploy_objectId hdeploy hobject⟩
  · rw [if_neg hdeploy] at h
    by_cases hcall : op.opType = "call"
    · rw [if_pos hcall] at h
      obtain ⟨objectId, -, h⟩ := bind_eq_ok h
      obtain ⟨prior, hprior, h⟩ := bind_eq_ok h
      obtain ⟨⟨object, used⟩, hobject, h⟩ := bind_eq_ok h
      cases h
      have hfound := orError_eq_ok hprior
      have hkeeps := (replayCall_keeps hobject).1
      refine .inr ⟨prior, object, rfl, if_neg hdeploy, hkeeps, ?_⟩
      rw [hkeeps, Keyed.key_of_lookup hfound]
      exact hfound
    · rw [if_neg hcall] at h
      cases h

/-! ## 3. The operations one after the other -/

variable {ops done : List FixtureOp} {effects : List FixtureEffect} {objects : List FixtureObject}

theorem replayFrom_replayed {i : Nat} {r r' : Replay}
    (hpast : Replayed X host done effects r.objects) (hlen : done.length = i)
    (h : replayFrom X host i r ops = .ok r') :
    ∃ effects', Replayed X host (done ++ ops) effects' r'.objects := by
  induction ops generalizing done effects i r with
  | nil =>
    cases h
    exact ⟨effects, by rwa [List.append_nil]⟩
  | cons op ops ih =>
    unfold replayFrom at h
    obtain ⟨⟨effect, gas⟩, hop, h⟩ := bind_eq_ok h
    subst hlen
    obtain ⟨effects', hrest⟩ := ih (hpast.step hop) (by simp) h
    exact ⟨effects', by rwa [List.append_assoc] at hrest⟩

theorem lastLeft_append (objectId : String) (effects : List FixtureEffect)
    (effect : FixtureEffect) :
    lastLeft objectId (effects ++ [effect]) =
      if effect.left.objectId = objectId then some effect.left else lastLeft objectId effects := by
  unfold lastLeft Keyed.lookup
  rw [List.map_append, List.map_singleton, List.reverse_append, List.reverse_singleton,
    List.singleton_append, List.find?_cons]
  split
  · rename_i hkey
    rw [if_pos (of_decide_eq_true hkey)]
  · rename_i hkey
    rw [if_neg (of_decide_eq_false hkey)]

/-- The ids in the vector are the deployed ones, in their order. -/
theorem Replayed.ids (h : Replayed X host ops effects objects) :
    objects.map FixtureObject.objectId = ops.filterMap (FixtureOp.deployId X) := by
  induction h with
  | start => rfl
  | @step ops effects objects op effect gas _ hop ih =>
    rw [List.filterMap_append, ← ih]
    rcases replayOp_cases hop with ⟨object, rfl, hid⟩ | ⟨prior, object, rfl, hid, -, -⟩
    · rw [List.filterMap_cons_some hid]
      exact List.map_append
    · rw [List.filterMap_cons_none hid, List.filterMap_nil, List.append_nil]
      exact Keyed.map_key_replace object objects

/-- Where no id is deployed twice, the object that is found is the one that was left last. -/
theorem Replayed.lookup_eq (h : Replayed X host ops effects objects)
    (honce : (ops.filterMap (FixtureOp.deployId X)).Nodup) (objectId : String) :
    Keyed.lookup FixtureObject.objectId objectId objects = lastLeft objectId effects := by
  induction h with
  | start => rfl
  | @step ops effects objects op effect gas past hop ih =>
    have hids := (past.step hop).ids
    rw [List.filterMap_append] at honce
    have hbefore := ih (List.nodup_append.mp honce).1
    rw [lastLeft_append, ← hbefore]
    rcases replayOp_cases hop with ⟨object, rfl, hid⟩ | ⟨prior, object, rfl, -, hkeeps, hfound⟩
    · -- the new object is found if none with its id stands before it
      show Keyed.lookup _ objectId (objects ++ [object]) =
        if object.objectId = objectId then _ else _
      rw [Keyed.lookup_append]
      by_cases hsame : object.objectId = objectId
      · have hnew : Keyed.lookup FixtureObject.objectId objectId objects = none := by
          apply Keyed.lookup_eq_none.mpr
          intro o ho heq
          rw [List.filterMap_cons_some hid, ← past.ids] at honce
          exact (List.nodup_append.mp honce).2.2 _ (List.mem_map_of_mem ho) _
            (List.mem_singleton_self _) (heq.trans hsame.symm)
        rw [if_pos hsame, hnew, Option.none_or]
        unfold Keyed.lookup
        rw [List.find?_cons_of_pos (by simpa using hsame)]
        rfl
      · rw [if_neg hsame]
        unfold Keyed.lookup
        rw [List.find?_cons_of_neg (by simpa using hsame), List.find?_nil, Option.or_none]
    · show Keyed.lookup _ objectId (Keyed.replace _ object objects) =
        if object.objectId = objectId then _ else _
      by_cases hsame : object.objectId = objectId
      · rw [if_pos hsame, ← hsame]
        exact Keyed.lookup_replace_self hfound
      · rw [if_neg hsame]
        exact Keyed.lookup_replace_of_ne (Ne.symm hsame)

theorem Replayed.threaded (h : Replayed X host ops effects objects)
    (honce : (ops.filterMap (FixtureOp.deployId X)).Nodup) : Threaded effects := by
  induction h with
  | start =>
    intro before prior object after heq
    exact absurd heq (by simp)
  | @step ops effects objects op effect gas past hop ih =>
    rw [List.filterMap_append] at honce
    have hpast := (List.nodup_append.mp honce).1
    intro before prior object after heq
    -- the call is the operation of this step, or one before it
    rcases List.eq_nil_or_concat' after with rfl | ⟨after, last, rfl⟩
    · obtain ⟨rfl, hlast⟩ := List.append_inj' heq rfl
      obtain rfl := (List.cons.inj hlast).1
      rcases replayOp_cases hop with ⟨_, hdeployed, -⟩ | ⟨_, _, hcalled, -, -, hfound⟩
      · cases hdeployed
      · cases hcalled
        rw [← past.lookup_eq hpast]
        exact hfound
    · rw [← List.cons_append, ← List.append_assoc] at heq
      exact ih hpast before prior object after (List.append_inj' heq rfl).1

theorem Replayed.onePerId_iff (h : Replayed X host ops effects objects) :
    OnePerId effects (statesOf objects) ↔ (ops.filterMap (FixtureOp.deployId X)).Nodup := by
  have hids : (statesOf objects).map (·.1) = ops.filterMap (FixtureOp.deployId X) := by
    unfold statesOf
    rw [← h.ids, List.map_map]
    rfl
  constructor
  · intro hone
    have hnodup := hone.ids_nodup
    rwa [hids] at hnodup
  · intro honce
    refine ⟨by rwa [hids], fun objectId state ↦ ?_⟩
    unfold statesOf
    rw [← h.lookup_eq honce, List.mem_map]
    constructor
    · rintro ⟨object, hmem, heq⟩
      cases heq
      have hnodup : (objects.map FixtureObject.objectId).Nodup := by rwa [h.ids]
      exact ⟨object, Keyed.lookup_of_mem hnodup hmem, rfl⟩
    · rintro ⟨object, hfound, rfl⟩
      refine ⟨object, Keyed.mem_of_lookup hfound, ?_⟩
      rw [Keyed.key_of_lookup hfound]

/-- **A replay threads the states of the objects.**  In a replay that is accepted every call runs
the code and the state that the last operation on its object left, and the root is over one pair per
id with its last state, exactly if the fixture deploys no id twice. -/
theorem fixture_threads_iff (X : Crates) (host : FixtureHost) (fixtureBytes : Bytes)
    (fixture : Fixture) (report : FixtureReport)
    (hfixture : host.fromSlice fixtureBytes = .ok fixture)
    (haccepts : verifyFixture X host fixtureBytes = .ok report) :
    ∃ effects objects, Replayed X host fixture.operations effects objects ∧
      report.stateRoot = computeFixtureStateRoot X (statesOf objects) ∧
      (Threaded effects ∧ OnePerId effects (statesOf objects) ↔
        (fixture.operations.filterMap (FixtureOp.deployId X)).Nodup) := by
  unfold verifyFixture at haccepts
  rw [hfixture] at haccepts
  obtain ⟨read, hread, haccepts⟩ := bind_eq_ok haccepts
  obtain rfl := Except.ok.inj hread
  by_cases hversion : fixture.version ≠ 1
  · rw [if_pos hversion] at haccepts
    cases haccepts
  · rw [if_neg hversion] at haccepts
    obtain ⟨r, hr, haccepts⟩ := bind_eq_ok haccepts
    obtain ⟨effects, hreplayed⟩ := replayFrom_replayed .start (List.length_nil) hr
    rw [List.nil_append] at hreplayed
    refine ⟨effects, r.objects, hreplayed, ?_, ?_⟩
    · rw [← Except.ok.inj haccepts]
    · constructor
      · intro h
        exact hreplayed.onePerId_iff.mp h.2
      · intro honce
        exact ⟨hreplayed.threaded honce, hreplayed.onePerId_iff.mpr honce⟩

/-- A contract whose state is its code at first, and grows by its code with each call. -/
def demoFixtureHost (operations : List FixtureOp) : FixtureHost where
  execute wasm state _ _ _ := .ok ⟨0, 0, state.stateData ++ wasm⟩
  deploy wasm _ _ _ _ := .ok ⟨0, 0, wasm⟩
  fromSlice _ := .ok ⟨1, operations⟩
  hexError _ := "Invalid character"
  version := "1"
  runtimeHash := ""

def demoDeploy (objectId wasmHex : String) : FixtureOp :=
  { opType := "deploy", objectId := some objectId, wasmHex := some wasmHex }

def demoFixtureCall (objectId : String) : FixtureOp :=
  { opType := "call", objectId := some objectId, method := some "m" }

/-- Two objects, each called once. -/
def demoReplayed : List FixtureOp :=
  [demoDeploy "obj1" "0a", demoDeploy "obj2" "0b", demoFixtureCall "obj1", demoFixtureCall "obj2"]

theorem fixture_threads_demo :
    ∃ effects objects,
      Replayed demoCrates (demoFixtureHost demoReplayed) demoReplayed effects objects ∧
      Threaded effects ∧ OnePerId effects (statesOf objects) := by
  obtain ⟨effects, objects, hreplayed, -, hthreads⟩ := fixture_threads_iff demoCrates
    (demoFixtureHost demoReplayed) [] ⟨1, demoReplayed⟩ _ rfl rfl
  have honce : (demoReplayed.filterMap (FixtureOp.deployId demoCrates)).Nodup := by
    simp [demoReplayed, demoDeploy, demoFixtureCall, FixtureOp.deployId]
  exact ⟨effects, objects, hreplayed, hthreads.mpr honce⟩

/-- An id that is deployed twice: the call runs the first object, and both are in the root. -/
def demoTwice : List FixtureOp :=
  [demoDeploy "obj1" "0a", demoDeploy "obj1" "0b", demoFixtureCall "obj1"]

theorem call_misses_redeploy :
    ∃ effects objects report, verifyFixture demoCrates (demoFixtureHost demoTwice) [] = .ok report ∧
      Replayed demoCrates (demoFixtureHost demoTwice) demoTwice effects objects ∧
      report.stateRoot = computeFixtureStateRoot demoCrates (statesOf objects) ∧
      ¬ Threaded effects ∧ ¬ OnePerId effects (statesOf objects) := by
  let first : FixtureObject := ⟨"obj1", [10], [10]⟩
  let second : FixtureObject := ⟨"obj1", [11], [11]⟩
  let called : FixtureObject := ⟨"obj1", [10, 10], [10]⟩
  refine ⟨[.deployed first, .deployed second, .called first called], [called, second], _, rfl,
    .step (.step (.step .start rfl) rfl) rfl, rfl, fun hthreaded ↦ ?_, fun hone ↦ ?_⟩
  · have hlast := hthreaded [.deployed first, .deployed second] first called [] rfl
    exact absurd hlast (by decide)
  · exact absurd hone.ids_nodup (by decide)

end UtxoVm
