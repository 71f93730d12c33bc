import UtxoVm.Reasoning.RustStd

/-!
# Tapscript — a stack machine for straight-line Bitcoin scripts

Byte-level decoding, the opcodes that move, concatenate, hash, check and compare stack elements,
and the success rule of BIP-342.  SHA-256 and the signature check are supplied by a `Host`; the
machine records what it feeds to them, so that a statement can talk about the hashed bytes, the
checked signatures and the compared elements of a run, whether or not the run succeeds.
-/

namespace Tapscript

open RustStd

inductive Op where
  | push (data : Bytes)
  | toAltStack
  | fromAltStack
  | drop
  | cat
  | sha256
  | equal
  | not
  | verify
  | checkSigVerify
  deriving DecidableEq, Repr

/-! ## 1. Decoding -/

def opOfByte (b : UInt8) : Option Op :=
  if b = 0x6b then some .toAltStack
  else if b = 0x6c then some .fromAltStack
  else if b = 0x75 then some .drop
  else if b = 0x7e then some .cat
  else if b = 0xa8 then some .sha256
  else if b = 0x87 then some .equal
  else if b = 0x91 then some .not
  else if b = 0x69 then some .verify
  else if b = 0xad then some .checkSigVerify
  else none

/-- What the next byte of a script means: an opcode, `left + 1` more bytes of a data push, or a
length byte of `OP_PUSHDATA1`/`OP_PUSHDATA2`. -/
inductive Expect where
  | opcode
  | data (left : Nat) (got : Bytes)
  | len1
  | len2
  | len2hi (lo : UInt8)
  deriving DecidableEq, Repr

def scan : Bytes → Expect → Option (List Op)
  | [], .opcode => some []
  | [], _ => none
  | b :: bs, .opcode =>
      if b = 0 then (scan bs .opcode).map (.push [] :: ·)
      else if b.toNat ≤ 75 then scan bs (.data (b.toNat - 1) [])
      else if b = 0x4c then scan bs .len1
      else if b = 0x4d then scan bs .len2
      else (opOfByte b).bind fun op ↦ (scan bs .opcode).map (op :: ·)
  | b :: bs, .data 0 got => (scan bs .opcode).map (.push (got ++ [b]) :: ·)
  | b :: bs, .data (n + 1) got => scan bs (.data n (got ++ [b]))
  | b :: bs, .len1 =>
      if b = 0 then (scan bs .opcode).map (.push [] :: ·) else scan bs (.data (b.toNat - 1) [])
  | b :: bs, .len2 => scan bs (.len2hi b)
  | b :: bs, .len2hi lo =>
      if lo = 0 ∧ b = 0 then (scan bs .opcode).map (.push [] :: ·)
      else scan bs (.data (lo.toNat + 256 * b.toNat - 1) [])

def decode (script : Bytes) : Option (List Op) := scan script .opcode

theorem scan_data (data rest got : Bytes) (n : Nat) (hn : data.length = n + 1) :
    scan (data ++ rest) (.data n got) = (scan rest .opcode).map (.push (got ++ data) :: ·) := by
  induction data generalizing n got with
  | nil => simp at hn
  | cons b data ih =>
    cases n with
    | zero =>
      obtain rfl : data = [] := List.eq_nil_of_length_eq_zero (by simpa using hn)
      rfl
    | succ n =>
      rw [List.cons_append, scan, ih _ n (by simpa using hn)]
      simp

/-- A direct push of 1 to 75 bytes. -/
theorem scan_push (len : UInt8) (data rest : Bytes) (hlen : data.length = len.toNat)
    (hpos : 0 < len.toNat) (hmax : len.toNat ≤ 75) :
    scan (len :: (data ++ rest)) .opcode = (scan rest .opcode).map (.push data :: ·) := by
  have hne : len ≠ 0 := by
    rintro rfl
    simp at hpos
  rw [scan, if_neg hne, if_pos hmax, scan_data data rest [] _ (by omega)]
  simp

/-- Every opcode byte lies above the push opcodes. -/
theorem scan_op (b : UInt8) (op : Op) (rest : Bytes) (hb : opOfByte b = some op) :
    scan (b :: rest) .opcode = (scan rest .opcode).map (op :: ·) := by
  have hnot : ∀ c : UInt8, opOfByte c = none → b ≠ c := by
    rintro c hc rfl
    rw [hb] at hc
    cases hc
  have hpush : ¬ b.toNat ≤ 75 := by
    intro hle
    have hsmall : ∀ n : Nat, n ≤ 75 → opOfByte (UInt8.ofNat n) = none := by decide
    exact hnot _ (hsmall _ hle) (UInt8.ofNat_toNat).symm
  rw [scan, if_neg (hnot 0 (by decide)), if_neg hpush, if_neg (hnot 0x4c (by decide)),
    if_neg (hnot 0x4d (by decide)), hb]
  rfl

theorem scan_replicate (b : UInt8) (op : Op) (n : Nat) (rest : Bytes) (hb : opOfByte b = some op) :
    scan (List.replicate n b ++ rest) .opcode =
      (scan rest .opcode).map (List.replicate n op ++ ·) := by
  induction n with
  | zero => simp
  | succ n ih =>
    rw [List.replicate_succ, List.cons_append, scan_op b op _ hb, ih]
    simp [Option.map_map, Function.comp_def, List.replicate_succ]

/-! ## 2. Execution -/

structure Host where
  sha256 : Bytes → Bytes
  /-- Public key, signature, and the stack below them. -/
  checkSig : Bytes → Bytes → List Bytes → Bool

/-- What a run has shown to its host so far, in order. -/
structure Trace where
  hashed : List Bytes := []
  checked : List (Bytes × Bytes) := []
  compared : List (Bytes × Bytes) := []
  deriving DecidableEq, Repr

/-- Both stacks have their top first. -/
structure State where
  stack : List Bytes
  alt : List Bytes := []
  trace : Trace := {}
  deriving DecidableEq, Repr

/-- `MAX_SCRIPT_ELEMENT_SIZE`. -/
def maxElement : Nat := 520

/-- `CastToBool`: zero and negative zero are false. -/
def castToBool : Bytes → Bool
  | [] => false
  | [b] => b != 0 && b != 0x80
  | b :: bs => b != 0 || castToBool bs

def ofBool (b : Bool) : Bytes := if b then [1] else []

variable (H : Host)

/-- One opcode.  An error keeps the state in which the script stopped. -/
def step (s : State) : Op → Except State State
  | .push data =>
      if data.length ≤ maxElement then .ok { s with stack := data :: s.stack } else .error s
  | .toAltStack =>
      match s.stack with
      | x :: st => .ok { s with stack := st, alt := x :: s.alt }
      | _ => .error s
  | .fromAltStack =>
      match s.alt with
      | x :: al => .ok { s with stack := x :: s.stack, alt := al }
      | _ => .error s
  | .drop =>
      match s.stack with
      | _ :: st => .ok { s with stack := st }
      | _ => .error s
  | .cat =>
      match s.stack with
      | top :: deep :: st =>
          if (deep ++ top).length ≤ maxElement then .ok { s with stack := (deep ++ top) :: st }
          else .error s
      | _ => .error s
  | .sha256 =>
      match s.stack with
      | x :: st =>
          .ok { s with stack := H.sha256 x :: st,
                       trace := { s.trace with hashed := s.trace.hashed ++ [x] } }
      | _ => .error s
  | .equal =>
      match s.stack with
      | x :: y :: st =>
          .ok { s with stack := ofBool (x == y) :: st,
                       trace := { s.trace with compared := s.trace.compared ++ [(y, x)] } }
      | _ => .error s
  | .not =>
      match s.stack with
      | x :: st => if x.length ≤ 4 then .ok { s with stack := ofBool (!castToBool x) :: st }
                   else .error s
      | _ => .error s
  | .verify =>
      match s.stack with
      | x :: st => if castToBool x then .ok { s with stack := st } else .error s
      | _ => .error s
  | .checkSigVerify =>
      match s.stack with
      | pk :: sig :: st =>
          let s' := { s with stack := st,
                             trace := { s.trace with checked := s.trace.checked ++ [(sig, pk)] } }
          if H.checkSig pk sig st then .ok s' else .error s'
      | _ => .error s

def exec : List Op → State → Except State State
  | [], s => .ok s
  | op :: ops, s => (step H s op).bind (exec ops)

/-- Runs a script on a witness given in array order (its last item is the top of the stack). -/
def run (script : Bytes) (witness : List Bytes) : Except State State :=
  match decode script with
  | some ops => exec H ops { stack := witness.reverse }
  | none => .error { stack := witness.reverse }

/-- The state in which a run ended, failed or not. -/
def finalState : Except State State → State
  | .ok s => s
  | .error s => s

/-- The script did not fail. -/
def Passes (r : Except State State) : Prop := ∃ s, r = .ok s

/-- BIP-342 success: exactly one element is left, and it is true. -/
def Succeeds (r : Except State State) : Prop := ∃ s x, r = .ok s ∧ s.stack = [x] ∧ castToBool x

@[simp] theorem passes_ok (s : State) : Passes (.ok s) := ⟨s, rfl⟩

@[simp] theorem not_passes_error (s : State) : ¬ Passes (.error s) := by
  rintro ⟨s', hs'⟩
  cases hs'

theorem Succeeds.passes {r : Except State State} (h : Succeeds r) : Passes r := by
  obtain ⟨s, _, hr, _⟩ := h
  exact ⟨s, hr⟩

/-! ## 3. Straight-line rules -/

@[simp] theorem castToBool_ofBool (b : Bool) : castToBool (ofBool b) = b := by
  cases b <;> rfl

@[simp] theorem ofBool_length_le (b : Bool) : (ofBool b).length ≤ 4 := by
  cases b <;> decide

/-- `n` elements moved to the altstack arrive there in reverse order. -/
theorem exec_toAltStack (xs st al : List Bytes) (tr : Trace) (ops : List Op) :
    exec H (List.replicate xs.length .toAltStack ++ ops) ⟨xs ++ st, al, tr⟩ =
      exec H ops ⟨st, xs.reverse ++ al, tr⟩ := by
  induction xs generalizing al with
  | nil => rfl
  | cons x xs ih =>
    simp only [List.length_cons, List.replicate_succ, List.cons_append, exec, step, Except.bind]
    rw [ih]
    simp

/-- With fewer elements than `OP_TOALTSTACK`s the script fails. -/
theorem exec_toAltStack_short (n : Nat) (st al : List Bytes) (tr : Trace) (ops : List Op)
    (hshort : st.length < n) :
    ∃ e, exec H (List.replicate n .toAltStack ++ ops) ⟨st, al, tr⟩ = .error e ∧ e.trace = tr := by
  induction n generalizing st al with
  | zero => simp at hshort
  | succ n ih =>
    cases st with
    | nil => exact ⟨⟨[], al, tr⟩, rfl, rfl⟩
    | cons x st =>
      simp only [List.replicate_succ, List.cons_append, exec, step, Except.bind]
      exact ih st (x :: al) (by simpa using hshort)

end Tapscript
