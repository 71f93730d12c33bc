import UtxoVm.P2p.Service

/-!
# The answers of the P2P service

A request for a contract is answered from the record store, or waits for a query of Kademlia.  Over
any run of the loop no request is lost or answered twice, and none gets the answer of another.
-/

namespace UtxoVm

open RustStd StateStore Rpc

namespace P2pService

/-! ## 1. What is asked and what is answered -/

/-- The request for a contract: its channel and the hash. -/
def Event.asked : Event → Option (Nat × String)
  | .command resp (.getContract codeHash) _ => some (resp, codeHash)
  | _ => none

def Effect.answer : Effect → Option (Nat × Option Bytes)
  | .got resp value => some (resp, value)
  | _ => none

def Effect.query : Effect → Option (Nat × String)
  | .getRecord id codeHash => some (id, codeHash)
  | _ => none

def QueryResult.value : QueryResult → Option Bytes
  | .foundRecord value => some value
  | .failed | .other => none

def asked (es : List Event) : List (Nat × String) := es.filterMap Event.asked

def answers (effects : List Effect) : List (Nat × Option Bytes) := effects.filterMap Effect.answer

def queries (effects : List Effect) : List (Nat × String) := effects.filterMap Effect.query

@[simp] theorem asked_append (es es' : List Event) : asked (es ++ es') = asked es ++ asked es' :=
  List.filterMap_append

@[simp] theorem answers_append (effects effects' : List Effect) :
    answers (effects ++ effects') = answers effects ++ answers effects' := List.filterMap_append

@[simp] theorem queries_append (effects effects' : List Effect) :
    queries (effects ++ effects') = queries effects ++ queries effects' := List.filterMap_append

/-- Where the answer to a request for the hash comes from: the record store, with code of this hash
or another peer's record, or the progress of a query for this hash. -/
def Genuine (X : Crates) (es : List Event) (effects : List Effect) (codeHash : String)
    (value : Option Bytes) : Prop :=
  (∃ record, value = some record ∧
      (wasmHash X record = codeHash ∨ Event.inboundRecord codeHash record ∈ es)) ∨
    ∃ id result, (id, codeHash) ∈ queries effects ∧ Event.queryProgressed id result ∈ es ∧
      value = result.value

variable {X : Crates} {L : Libp2p}

theorem Genuine.append {es : List Event} {effects : List Effect} {codeHash : String}
    {value : Option Bytes} (h : Genuine X es effects codeHash value) (es' : List Event)
    (effects' : List Effect) : Genuine X (es ++ es') (effects ++ effects') codeHash value := by
  rcases h with ⟨record, hvalue, hrecord⟩ | ⟨id, result, hquery, hprogress, hvalue⟩
  · exact .inl ⟨record, hvalue, hrecord.imp_right (List.mem_append_left _)⟩
  · refine .inr ⟨id, result, ?_, List.mem_append_left _ hprogress, hvalue⟩
    rw [queries_append]
    exact List.mem_append_left _ hquery

/-! ## 2. The bookkeeping of the loop -/

/-- The state of the loop after the events, and what they have set off. -/
structure Ledger (X : Crates) (es : List Event) (s : State) (effects : List Effect) : Prop where
  /-- A channel that waits does so for a query for the hash that it asked for, and for no other. -/
  waits : ∀ (id resp : Nat), s.pendingDhtGets[id]? = some resp →
    ∃ codeHash, (resp, codeHash) ∈ asked es ∧ (id, codeHash) ∈ queries effects
  waitsOnce : ∀ (id id' resp : Nat), s.pendingDhtGets[id]? = some resp →
    s.pendingDhtGets[id']? = some resp → id = id'
  unanswered : ∀ (id resp : Nat), s.pendingDhtGets[id]? = some resp →
    resp ∉ (answers effects).map (·.1)
  /-- No request is lost. -/
  kept : ∀ resp codeHash, (resp, codeHash) ∈ asked es →
    resp ∈ (answers effects).map (·.1) ∨ ∃ id : Nat, s.pendingDhtGets[id]? = some resp
  once : ((answers effects).map (·.1)).Nodup
  genuine : ∀ resp value, (resp, value) ∈ answers effects →
    ∃ codeHash, (resp, codeHash) ∈ asked es ∧ Genuine X es effects codeHash value
  records : ∀ codeHash value, s.records[codeHash]? = some value →
    wasmHash X value = codeHash ∨ Event.inboundRecord codeHash value ∈ es

theorem ledger_start : Ledger X [] start [] := by
  have hpending (id : Nat) : start.pendingDhtGets[id]? = none := by simp [start]
  have hrecords (codeHash : String) : start.records[codeHash]? = none := by simp [start]
  constructor
  · exact fun id resp h ↦ by cases (hpending id).symm.trans h
  · exact fun id id' resp h ↦ by cases (hpending id).symm.trans h
  · exact fun id resp h ↦ by cases (hpending id).symm.trans h
  · exact fun resp codeHash h ↦ absurd h List.not_mem_nil
  · exact List.nodup_nil
  · exact fun resp value h ↦ absurd h List.not_mem_nil
  · exact fun codeHash value h ↦ by cases (hrecords codeHash).symm.trans h

/-- The records after one more event. -/
theorem records_step {es : List Event} {s : State} {e : Event}
    (h : ∀ codeHash value, s.records[codeHash]? = some value →
      wasmHash X value = codeHash ∨ Event.inboundRecord codeHash value ∈ es)
    (codeHash : String) (value : Bytes)
    (hvalue : (step X L s e).1.records[codeHash]? = some value) :
    wasmHash X value = codeHash ∨ Event.inboundRecord codeHash value ∈ es ++ [e] := by
  have hold (hs : s.records[codeHash]? = some value) :
      wasmHash X value = codeHash ∨ Event.inboundRecord codeHash value ∈ es ++ [e] :=
    (h codeHash value hs).imp_right (List.mem_append_left _)
  have hwrite := step_write (X := X) (L := L) s e
  generalize (step X L s e).1.records = records at hwrite hvalue
  cases hwrite with
  | none => exact hold hvalue
  | put value' =>
    rw [Table.get_insert] at hvalue
    split at hvalue
    · rename_i hhash
      cases hvalue
      exact .inl hhash.symm
    · exact hold hvalue
  | inbound codeHash' value' he =>
    rw [Table.get_insert] at hvalue
    split at hvalue
    · rename_i hsame
      cases hvalue
      rw [he, hsame]
      exact .inr (List.mem_append_right _ (List.mem_singleton.mpr rfl))
    · exact hold hvalue
  | expired codeHash' he =>
    rw [Table.get_erase] at hvalue
    split at hvalue
    · cases hvalue
    · exact hold hvalue

/-- The event neither asks nor answers nor starts a query for a contract. -/
structure Quiet (X : Crates) (L : Libp2p) (s : State) (e : Event) : Prop where
  asked : e.asked = none
  answers : answers (step X L s e).2 = []
  queries : queries (step X L s e).2 = []
  pending : (step X L s e).1.pendingDhtGets = s.pendingDhtGets

theorem Quiet.of_step {s s' : State} {e : Event} {effects : List Effect} (hasked : e.asked = none)
    (hstep : step X L s e = (s', effects)) (hanswers : P2pService.answers effects = [])
    (hqueries : P2pService.queries effects = [])
    (hpending : s'.pendingDhtGets = s.pendingDhtGets) : Quiet X L s e := by
  constructor
  · exact hasked
  all_goals rw [hstep]
  · exact hanswers
  · exact hqueries
  · exact hpending

theorem putRecord_pending (s : State) (codeHash : String) (value : Bytes) :
    (putRecord L s codeHash value).pendingDhtGets = s.pendingDhtGets := by
  unfold putRecord
  split <;> rfl

/-- A message is no answer and no query. -/
theorem publish_silent (published : Bool) (topic : String) (data : Bytes) (effects : List Effect) :
    answers (publish published topic data ++ effects) = answers effects ∧
      queries (publish published topic data ++ effects) = queries effects := by
  cases published <;> exact ⟨rfl, rfl⟩

theorem quiet_put (s : State) (resp : Nat) (codeHash : String) (wasmBytes : Bytes)
    (returned : Returned) :
    Quiet X L s (.command resp (.putContract codeHash wasmBytes) returned) := by
  have hstep : step X L s (.command resp (.putContract codeHash wasmBytes) returned) =
    onCommand X L s resp returned (.putContract codeHash wasmBytes) := rfl
  unfold onCommand at hstep
  dsimp only at hstep
  by_cases hhash : wasmHash X wasmBytes ≠ codeHash
  · rw [if_pos hhash] at hstep
    exact .of_step rfl hstep rfl rfl rfl
  · rw [if_neg hhash] at hstep
    obtain ⟨hanswers, hqueries⟩ := publish_silent returned.published topicContract
      (X.jsonToVec (contractPayload codeHash wasmBytes)) [.put resp (.ok ())]
    exact .of_step rfl hstep hanswers hqueries (putRecord_pending s codeHash wasmBytes)

theorem quiet_message (s : State) (topic : String) (data : Bytes) :
    Quiet X L s (.message topic data) := by
  have hstep : step X L s (.message topic data) = onMessage X L s topic data := rfl
  unfold onMessage at hstep
  by_cases hattestation : topic = topicAttestation
  · rw [if_pos hattestation] at hstep
    cases hfrom : L.attestationFromSlice data with
    | none =>
      rw [hfrom] at hstep
      exact .of_step rfl hstep rfl rfl rfl
    | some attestation =>
      rw [hfrom] at hstep
      exact .of_step rfl hstep rfl rfl rfl
  rw [if_neg hattestation] at hstep
  by_cases hmempool : topic = topicMempool
  · rw [if_pos hmempool] at hstep
    exact .of_step rfl hstep rfl rfl rfl
  rw [if_neg hmempool] at hstep
  by_cases hcontract : topic = topicContract
  · rw [if_pos hcontract] at hstep
    cases hof : contractOf X data with
    | none =>
      rw [hof] at hstep
      exact .of_step rfl hstep rfl rfl rfl
    | some contract =>
      rw [hof] at hstep
      exact .of_step rfl hstep rfl rfl (putRecord_pending s contract.1 contract.2)
  · rw [if_neg hcontract] at hstep
    exact .of_step rfl hstep rfl rfl rfl

theorem quiet_publish {s : State} {e : Event} {published : Bool} {topic : String} {data : Bytes}
    (hasked : e.asked = none) (hstep : step X L s e = (s, publish published topic data)) :
    Quiet X L s e := by
  obtain ⟨hanswers, hqueries⟩ := publish_silent published topic data []
  rw [List.append_nil] at hanswers hqueries
  exact .of_step hasked hstep hanswers hqueries rfl

/-- What is not quiet asks for a contract, or is the progress of a query that someone waits for. -/
theorem step_quiet (s : State) (e : Event) :
    Quiet X L s e ∨ (∃ resp codeHash returned, e = .command resp (.getContract codeHash) returned) ∨
      ∃ id result resp, e = .queryProgressed id result ∧
        s.pendingDhtGets[id]? = some resp := by
  cases e with
  | command resp command returned =>
    cases command with
    | getContract codeHash => exact .inr (.inl ⟨resp, codeHash, returned, rfl⟩)
    | putContract codeHash wasmBytes => exact .inl (quiet_put s resp codeHash wasmBytes returned)
    | broadcastMempool data => exact .inl (quiet_publish rfl rfl)
    | getPeers => exact .inl ⟨rfl, rfl, rfl, rfl⟩
  | message topic data => exact .inl (quiet_message s topic data)
  | queryProgressed id result =>
    cases hid : s.pendingDhtGets[id]? with
    | some resp => exact .inr (.inr ⟨id, result, resp, rfl, hid⟩)
    | none =>
      have hstep : step X L s (.queryProgressed id result) = (s, []) := by
        show onQueryProgressed s id result = _
        unfold onQueryProgressed
        rw [hid]
      exact .inl (.of_step rfl hstep rfl rfl rfl)
  | inboundRecord codeHash value => exact .inl ⟨rfl, rfl, rfl, putRecord_pending s codeHash value⟩
  | inboundExpired codeHash => exact .inl ⟨rfl, rfl, rfl, rfl⟩
  | broadcastAttestation attestation published => exact .inl (quiet_publish rfl rfl)
  | connectionEstablished peer => exact .inl ⟨rfl, rfl, rfl, rfl⟩
  | connectionClosed peer => exact .inl ⟨rfl, rfl, rfl, rfl⟩
  | identified => exact .inl ⟨rfl, rfl, rfl, rfl⟩

section

variable {es : List Event} {effects : List Effect} {s : State}

theorem Ledger.quiet (h : Ledger X es s effects) {e : Event} (he : Quiet X L s e) :
    Ledger X (es ++ [e]) (step X L s e).1 (effects ++ (step X L s e).2) := by
  have hasked : asked (es ++ [e]) = asked es := by
    rw [asked_append]
    simp [asked, he.asked]
  have hanswers : answers (effects ++ (step X L s e).2) = answers effects := by
    rw [answers_append, he.answers, List.append_nil]
  have hqueries : queries (effects ++ (step X L s e).2) = queries effects := by
    rw [queries_append, he.queries, List.append_nil]
  constructor
  · rw [he.pending, hasked, hqueries]
    exact h.waits
  · rw [he.pending]
    exact h.waitsOnce
  · rw [he.pending, hanswers]
    exact h.unanswered
  · rw [he.pending, hanswers, hasked]
    exact h.kept
  · rw [hanswers]
    exact h.once
  · rw [hanswers, hasked]
    intro resp value hanswer
    obtain ⟨codeHash, hask, hgenuine⟩ := h.genuine resp value hanswer
    exact ⟨codeHash, hask, hgenuine.append _ _⟩
  · exact records_step h.records

/-- Only who asked is answered. -/
theorem Ledger.answered_asked (h : Ledger X es s effects) {resp : Nat}
    (hmem : resp ∈ (answers effects).map (·.1)) : resp ∈ (asked es).map (·.1) := by
  obtain ⟨⟨resp, value⟩, hanswer, rfl⟩ := List.mem_map.mp hmem
  obtain ⟨codeHash, hask, -⟩ := h.genuine resp value hanswer
  exact List.mem_map.mpr ⟨_, hask, rfl⟩

/-- Only who asked waits. -/
theorem Ledger.waiting_asked (h : Ledger X es s effects) {id resp : Nat}
    (hid : s.pendingDhtGets[id]? = some resp) : resp ∈ (asked es).map (·.1) := by
  obtain ⟨codeHash, hask, -⟩ := h.waits id resp hid
  exact List.mem_map.mpr ⟨_, hask, rfl⟩

/-- One more answer, to someone who has none yet. -/
theorem nodup_answer {resp : Nat} {value : Option Bytes}
    (honce : ((answers effects).map (·.1)).Nodup) (hnew : resp ∉ (answers effects).map (·.1)) :
    ((answers (effects ++ [.got resp value])).map (·.1)).Nodup := by
  show ((answers (effects ++ [.got resp value])).map (·.1)).Nodup
  rw [answers_append, List.map_append]
  apply honce.append
  · exact List.nodup_singleton _
  · intro r hr hr'
    rw [List.mem_singleton.mp hr'] at hr
    exact hnew hr

theorem mem_answers {resp resp' : Nat} {value : Option Bytes} :
    resp ∈ (answers (effects ++ [.got resp' value])).map (·.1) ↔
      resp ∈ (answers effects).map (·.1) ∨ resp = resp' := by
  rw [answers_append, List.map_append, List.mem_append]
  exact or_congr_right List.mem_singleton

/-- A request that the store answers. -/
theorem Ledger.stored (h : Ledger X es s effects) {resp : Nat} {codeHash : String}
    {returned : Returned} {value : Bytes} (hnew : resp ∉ (asked es).map (·.1))
    (hvalue : s.records[codeHash]? = some value) :
    Ledger X (es ++ [.command resp (.getContract codeHash) returned]) s
      (effects ++ [.got resp (some value)]) := by
  have hasked : asked (es ++ [.command resp (.getContract codeHash) returned]) =
    asked es ++ [(resp, codeHash)] := by rw [asked_append]; rfl
  have hqueries : queries (effects ++ [.got resp (some value)]) = queries effects := by
    rw [queries_append]
    exact List.append_nil _
  constructor
  · rw [hqueries, hasked]
    intro id r hid
    obtain ⟨codeHash', hask, hquery⟩ := h.waits id r hid
    exact ⟨codeHash', List.mem_append_left _ hask, hquery⟩
  · exact h.waitsOnce
  · intro id r hid hmem
    rcases mem_answers.mp hmem with hold | rfl
    · exact h.unanswered id r hid hold
    · exact hnew (h.waiting_asked hid)
  · rw [hasked]
    intro r codeHash' hask
    rw [mem_answers]
    rcases List.mem_append.mp hask with hold | hlast
    · exact (h.kept r codeHash' hold).imp_left .inl
    · cases List.mem_singleton.mp hlast
      exact .inl (.inr rfl)
  · exact nodup_answer h.once fun hmem ↦ hnew (h.answered_asked hmem)
  · rw [hasked, answers_append]
    intro r value' hanswer
    rcases List.mem_append.mp hanswer with hold | hlast
    · obtain ⟨codeHash', hask, hgenuine⟩ := h.genuine r value' hold
      exact ⟨codeHash', List.mem_append_left _ hask, hgenuine.append _ _⟩
    · cases List.mem_singleton.mp hlast
      refine ⟨codeHash, List.mem_append_right _ (List.mem_singleton.mpr rfl), .inl ⟨value, rfl, ?_⟩⟩
      exact (h.records codeHash value hvalue).imp_right (List.mem_append_left _)
  · intro codeHash' value' hrecord
    exact (h.records codeHash' value' hrecord).imp_right (List.mem_append_left _)

/-- A request that starts a query, with an id that no query before it has had. -/
theorem Ledger.queried (h : Ledger X es s effects) {resp : Nat} {codeHash : String}
    {returned : Returned} (hnew : resp ∉ (asked es).map (·.1))
    (hfresh : returned.queryId ∉ (queries effects).map (·.1)) :
    Ledger X (es ++ [.command resp (.getContract codeHash) returned])
      { s with pendingDhtGets := s.pendingDhtGets.insert returned.queryId resp }
      (effects ++ [.getRecord returned.queryId codeHash]) := by
  have hasked : asked (es ++ [.command resp (.getContract codeHash) returned]) =
    asked es ++ [(resp, codeHash)] := by rw [asked_append]; rfl
  have hqueries : queries (effects ++ [.getRecord returned.queryId codeHash]) =
    queries effects ++ [(returned.queryId, codeHash)] := by rw [queries_append]; rfl
  have hanswers :
      answers (effects ++ [.getRecord returned.queryId codeHash]) = answers effects := by
    rw [answers_append]
    exact List.append_nil _
  -- the new query waits for `resp`, the old ones as before
  have hpending (id r : Nat) (hid : (s.pendingDhtGets.insert returned.queryId resp)[id]? = some r) :
      (id = returned.queryId ∧ r = resp) ∨ s.pendingDhtGets[id]? = some r := by
    rw [Table.get_insert] at hid
    split at hid
    · rename_i hsame
      cases hid
      exact .inl ⟨hsame, rfl⟩
    · exact .inr hid
  have hkept (id r : Nat) (hid : s.pendingDhtGets[id]? = some r) :
      (s.pendingDhtGets.insert returned.queryId resp)[id]? = some r := by
    have hother : id ≠ returned.queryId := by
      rintro rfl
      obtain ⟨codeHash', -, hquery⟩ := h.waits _ r hid
      exact hfresh (List.mem_map.mpr ⟨_, hquery, rfl⟩)
    rw [Table.get_insert, if_neg hother]
    exact hid
  constructor
  · rw [hqueries, hasked]
    intro id r hid
    rcases hpending id r hid with ⟨rfl, rfl⟩ | hold
    · exact ⟨codeHash, List.mem_append_right _ (List.mem_singleton.mpr rfl),
        List.mem_append_right _ (List.mem_singleton.mpr rfl)⟩
    · obtain ⟨codeHash', hask, hquery⟩ := h.waits id r hold
      exact ⟨codeHash', List.mem_append_left _ hask, List.mem_append_left _ hquery⟩
  · intro id id' r hid hid'
    rcases hpending id r hid with ⟨rfl, rfl⟩ | hold <;>
      rcases hpending id' r hid' with ⟨rfl, hr⟩ | hold'
    · rfl
    · exact absurd (h.waiting_asked hold') hnew
    · rw [hr] at hold
      exact absurd (h.waiting_asked hold) hnew
    · exact h.waitsOnce id id' r hold hold'
  · rw [hanswers]
    intro id r hid hmem
    rcases hpending id r hid with ⟨-, rfl⟩ | hold
    · exact hnew (h.answered_asked hmem)
    · exact h.unanswered id r hold hmem
  · rw [hanswers, hasked]
    intro r codeHash' hask
    rcases List.mem_append.mp hask with hold | hlast
    · rcases h.kept r codeHash' hold with hanswer | ⟨id, hid⟩
      · exact .inl hanswer
      · exact .inr ⟨id, hkept id r hid⟩
    · cases List.mem_singleton.mp hlast
      refine .inr ⟨returned.queryId, ?_⟩
      show (s.pendingDhtGets.insert returned.queryId resp)[returned.queryId]? = _
      rw [Table.get_insert, if_pos rfl]
  · rw [hanswers]
    exact h.once
  · rw [hanswers, hasked]
    intro r value hanswer
    obtain ⟨codeHash', hask, hgenuine⟩ := h.genuine r value hanswer
    exact ⟨codeHash', List.mem_append_left _ hask, hgenuine.append _ _⟩
  · intro codeHash' value' hrecord
    exact (h.records codeHash' value' hrecord).imp_right (List.mem_append_left _)

/-- The progress of a query that someone waits for. -/
theorem Ledger.progressed (h : Ledger X es s effects) {id resp : Nat} {result : QueryResult}
    (hid : s.pendingDhtGets[id]? = some resp) :
    Ledger X (es ++ [.queryProgressed id result])
      { s with pendingDhtGets := s.pendingDhtGets.erase id }
      (effects ++ [.got resp result.value]) := by
  have hasked : asked (es ++ [.queryProgressed id result]) = asked es := by
    rw [asked_append]
    exact List.append_nil _
  have hqueries : queries (effects ++ [.got resp result.value]) = queries effects := by
    rw [queries_append]
    exact List.append_nil _
  have hpending (id' r : Nat) (hid' : (s.pendingDhtGets.erase id)[id']? = some r) :
      id' ≠ id ∧ s.pendingDhtGets[id']? = some r := by
    rw [Table.get_erase] at hid'
    split at hid'
    · cases hid'
    · rename_i hne
      exact ⟨hne, hid'⟩
  constructor
  · rw [hqueries, hasked]
    exact fun id' r hid' ↦ h.waits id' r (hpending id' r hid').2
  · exact fun id₁ id₂ r h₁ h₂ ↦ h.waitsOnce id₁ id₂ r (hpending id₁ r h₁).2 (hpending id₂ r h₂).2
  · intro id' r hid' hmem
    obtain ⟨hne, hold⟩ := hpending id' r hid'
    rcases mem_answers.mp hmem with hanswer | rfl
    · exact h.unanswered id' r hold hanswer
    · exact hne (h.waitsOnce id' id r hold hid)
  · rw [hasked]
    intro r codeHash hask
    rw [mem_answers]
    rcases h.kept r codeHash hask with hanswer | ⟨id', hid'⟩
    · exact .inl (.inl hanswer)
    · by_cases hsame : id' = id
      · rw [hsame, hid] at hid'
        cases hid'
        exact .inl (.inr rfl)
      · refine .inr ⟨id', ?_⟩
        show (s.pendingDhtGets.erase id)[id']? = _
        rw [Table.get_erase, if_neg hsame]
        exact hid'
  · exact nodup_answer h.once (h.unanswered id resp hid)
  · rw [hasked, answers_append]
    intro r value hanswer
    rcases List.mem_append.mp hanswer with hold | hlast
    · obtain ⟨codeHash, hask, hgenuine⟩ := h.genuine r value hold
      exact ⟨codeHash, hask, hgenuine.append _ _⟩
    · cases List.mem_singleton.mp hlast
      obtain ⟨codeHash, hask, hquery⟩ := h.waits id resp hid
      refine ⟨codeHash, hask, .inr ⟨id, result, ?_, ?_, rfl⟩⟩
      · rw [hqueries]
        exact hquery
      · exact List.mem_append_right _ (List.mem_singleton.mpr rfl)
  · intro codeHash value hrecord
    exact (h.records codeHash value hrecord).imp_right (List.mem_append_left _)

/-! ## 3. Runs -/

theorem Ledger.step (h : Ledger X es s effects) {e : Event}
    (hnew : ∀ resp codeHash returned, e = .command resp (.getContract codeHash) returned →
      resp ∉ (asked es).map (·.1))
    (hfresh : ((queries (effects ++ (P2pService.step X L s e).2)).map (·.1)).Nodup) :
    Ledger X (es ++ [e]) (P2pService.step X L s e).1
      (effects ++ (P2pService.step X L s e).2) := by
  rcases step_quiet (X := X) (L := L) s e with
    hquiet | ⟨resp, codeHash, returned, rfl⟩ | ⟨id, result, resp, rfl, hid⟩
  · exact h.quiet hquiet
  · change ((queries (effects ++
      (onCommand X L s resp returned (.getContract codeHash)).2)).map (·.1)).Nodup at hfresh
    show Ledger X _ (onCommand X L s resp returned (.getContract codeHash)).1
      (effects ++ (onCommand X L s resp returned (.getContract codeHash)).2)
    unfold onCommand at hfresh ⊢
    dsimp only at hfresh ⊢
    cases hrecord : s.records[codeHash]? with
    | some value => exact h.stored (hnew resp codeHash returned rfl) hrecord
    | none =>
      -- Kademlia has not given the id to an earlier query
      rw [hrecord, queries_append, List.map_append] at hfresh
      refine h.queried (hnew resp codeHash returned rfl) fun hmem ↦ ?_
      exact List.disjoint_of_nodup_append hfresh hmem (List.mem_singleton.mpr rfl)
  · show Ledger X _ (onQueryProgressed s id result).1
      (effects ++ (onQueryProgressed s id result).2)
    unfold onQueryProgressed
    rw [hid]
    cases result <;> exact h.progressed hid

end

theorem ledger_run {es : List Event} (hdistinct : ((asked es).map (·.1)).Nodup)
    (hfresh : ((queries (run X L start es).2).map (·.1)).Nodup) :
    Ledger X es (run X L start es).1 (run X L start es).2 := by
  induction es using List.reverseRecOn with
  | nil => exact ledger_start
  | append_singleton es e ih =>
    rw [asked_append, List.map_append] at hdistinct
    rw [run_concat] at hfresh ⊢
    have hbefore : ((queries (run X L start es).2).map (·.1)).Nodup := by
      rw [queries_append, List.map_append] at hfresh
      exact List.Nodup.of_append_left hfresh
    refine (ih (List.Nodup.of_append_left hdistinct) hbefore).step ?_ hfresh
    rintro resp codeHash returned rfl hmem
    exact List.disjoint_of_nodup_append hdistinct hmem (List.mem_singleton.mpr rfl)

/-- **Every request for a contract is answered once, and with what it asked for.**  Over any run of
the loop from its start, in which every request has a response channel of its own and every query an
id of its own: no channel gets two answers, a request has its answer exactly when it does not wait
for a query any more, and the answer is code of the hash that was asked for, another peer's record
of this name, or what a query for this hash has found. -/
theorem requests_answered_once {es : List Event} (hdistinct : ((asked es).map (·.1)).Nodup)
    (hfresh : ((queries (run X L start es).2).map (·.1)).Nodup) :
    ((answers (run X L start es).2).map (·.1)).Nodup ∧
      (∀ resp codeHash, (resp, codeHash) ∈ asked es →
        (resp ∈ (answers (run X L start es).2).map (·.1) ↔
          ¬ ∃ id : Nat, (run X L start es).1.pendingDhtGets[id]? = some resp)) ∧
      ∀ resp value, (resp, value) ∈ answers (run X L start es).2 →
        ∃ codeHash, (resp, codeHash) ∈ asked es ∧
          Genuine X es (run X L start es).2 codeHash value := by
  have h := ledger_run (X := X) (L := L) hdistinct hfresh
  refine ⟨h.once, fun resp codeHash hask ↦ ⟨?_, ?_⟩, h.genuine⟩
  · rintro hanswer ⟨id, hid⟩
    exact h.unanswered id resp hid hanswer
  · exact (h.kept resp codeHash hask).resolve_right

/-- Two requests for contracts that the node does not have; the query of the second one fails. -/
theorem requests_answered_once_two :
    let es : List Event := [.command 0 (.getContract "a") ⟨true, 5⟩,
      .command 1 (.getContract "b") ⟨true, 6⟩, .queryProgressed 6 .failed,
      .queryProgressed 6 (.foundRecord [7])]
    ((answers (run demoCrates demoLibp2p start es).2).map (·.1)).Nodup :=
  (requests_answered_once (by decide) (by decide +kernel)).1

end P2pService

end UtxoVm
