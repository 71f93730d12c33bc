import UtxoVm.Reasoning.ScriptNum

/-!
# Wire — reading binary records back

A reader takes a value off the front of some bytes.  It reads a value from the bytes that were
written for it when it returns that value and leaves exactly what follows; readers compose as the
writers do.
-/

namespace Wire

open RustStd ScriptNum

/-- Read a value off the front. -/
abbrev Reader := StateT Bytes Option

variable {α β : Type}

/-! ## 1. Readers -/

/-- The next `n` bytes. -/
def bytes (n : Nat) : Reader Bytes := fun input ↦
  if n ≤ input.length then some (input.take n, input.drop n) else none

/-- A little-endian number of `w` bytes. -/
def number (w : Nat) : Reader Nat := do
  let digits ← bytes w
  return leValue digits

/-- Bytes behind one byte that gives their length. -/
def bounded : Reader Bytes := do
  let len ← number 1
  bytes len

def many (item : Reader α) : Nat → Reader (List α)
  | 0 => return []
  | n + 1 => do
      let a ← item
      let rest ← many item n
      return a :: rest

/-- Items behind one byte that gives their number. -/
def counted (item : Reader α) : Reader (List α) := do
  let n ← number 1
  many item n

/-- Read a value from all of the input. -/
def whole (reader : Reader α) (input : Bytes) : Option α :=
  match reader.run input with
  | some (a, []) => some a
  | _ => none

/-! ## 2. Writers -/

def writeBounded (data : Bytes) : Bytes := UInt8.ofNat data.length :: data

def writeCounted (write : α → Bytes) (items : List α) : Bytes :=
  UInt8.ofNat items.length :: items.flatMap write

/-! ## 3. What was written is read -/

/-- From `written` the reader reads `a`, and leaves what follows. -/
def Reads (reader : Reader α) (written : Bytes) (a : α) : Prop :=
  ∀ rest, reader.run (written ++ rest) = some (a, rest)

theorem Reads.pure (a : α) : Reads (pure a) [] a := fun _ ↦ rfl

theorem Reads.bind {reader : Reader α} {next : α → Reader β} {written written' : Bytes} {a : α}
    {b : β} (h : Reads reader written a) (h' : Reads (next a) written' b) :
    Reads (reader >>= next) (written ++ written') b := by
  intro rest
  rw [StateT.run_bind, List.append_assoc, h]
  exact h' rest

/-- A reader whose result is only wrapped up. -/
theorem Reads.map {reader : Reader α} {written : Bytes} {a : α} (f : α → β)
    (h : Reads reader written a) : Reads (reader >>= fun a ↦ Pure.pure (f a)) written (f a) := by
  have hbind : Reads (reader >>= fun a ↦ Pure.pure (f a)) (written ++ []) (f a) :=
    h.bind (Reads.pure (f a))
  rwa [List.append_nil] at hbind

theorem reads_bytes {data : Bytes} {n : Nat} (h : data.length = n) : Reads (bytes n) data data := by
  intro rest
  subst h
  show (if data.length ≤ (data ++ rest).length then _ else _) = _
  rw [if_pos (by simp), List.take_left, List.drop_left]

theorem reads_number {w n : Nat} (hn : n < 256 ^ w) : Reads (number w) (leBytes w n) n := by
  have hread := (reads_bytes (leBytes_length w n)).map leValue
  rwa [leValue_leBytes hn] at hread

/-- One byte is a number of one byte. -/
theorem reads_byte {n : Nat} (hn : n < 256) : Reads (number 1) [UInt8.ofNat n] n :=
  reads_number (w := 1) hn

theorem reads_bounded {data : Bytes} (h : data.length < 256) :
    Reads bounded (writeBounded data) data :=
  (reads_byte h).bind (reads_bytes rfl)

theorem reads_many {item : Reader α} {write : α → Bytes} {items : List α}
    (h : ∀ a ∈ items, Reads item (write a) a) :
    Reads (many item items.length) (items.flatMap write) items := by
  induction items with
  | nil => exact Reads.pure []
  | cons a items ih =>
    have hrest := ih fun b hb ↦ h b (List.mem_cons_of_mem _ hb)
    exact (h a List.mem_cons_self).bind (hrest.map (a :: ·))

theorem reads_counted {item : Reader α} {write : α → Bytes} {items : List α}
    (hlength : items.length < 256) (h : ∀ a ∈ items, Reads item (write a) a) :
    Reads (counted item) (writeCounted write items) items :=
  (reads_byte hlength).bind (reads_many h)

theorem Reads.whole {reader : Reader α} {written : Bytes} {a : α} (h : Reads reader written a) :
    whole reader written = some a := by
  have hrun := h []
  rw [List.append_nil] at hrun
  unfold Wire.whole
  rw [hrun]

/-! ## 4. What a reader can return -/

/-- Every value that the reader returns satisfies `Q`. -/
def Returns (reader : Reader α) (Q : α → Prop) : Prop :=
  ∀ input a rest, reader.run input = some (a, rest) → Q a

theorem Returns.any (reader : Reader α) : Returns reader fun _ ↦ True := fun _ _ _ _ ↦ trivial

theorem Returns.pure {Q : α → Prop} {a : α} (h : Q a) : Returns (pure a) Q := by
  intro input b rest hrun
  cases hrun
  exact h

theorem Returns.bind {reader : Reader α} {next : α → Reader β} {P : α → Prop} {Q : β → Prop}
    (h : Returns reader P) (h' : ∀ a, P a → Returns (next a) Q) : Returns (reader >>= next) Q := by
  intro input b rest hrun
  rw [StateT.run_bind, Option.bind_eq_bind, Option.bind_eq_some_iff] at hrun
  obtain ⟨⟨a, middle⟩, hfirst, hnext⟩ := hrun
  exact h' a (h input a middle hfirst) middle b rest hnext

theorem returns_bytes (n : Nat) : Returns (bytes n) fun data ↦ data.length = n := by
  intro input data rest hrun
  change (if n ≤ input.length then _ else _) = _ at hrun
  split at hrun
  · cases hrun
    rw [List.length_take]
    omega
  · cases hrun

theorem leValue_lt (data : Bytes) : leValue data < 256 ^ data.length := by
  induction data with
  | nil => exact Nat.one_pos
  | cons b data ih =>
    have hb := b.toNat_lt
    rw [leValue, List.length_cons, pow_succ]
    omega

theorem returns_number (w : Nat) : Returns (number w) (· < 256 ^ w) := by
  refine (returns_bytes w).bind fun data hdata ↦ .pure ?_
  rw [← hdata]
  exact leValue_lt data

/-- One byte gives no length from 256 on. -/
theorem returns_bounded : Returns bounded (·.length < 256) := by
  refine (returns_number 1).bind fun len hlen ↦ ?_
  intro input data rest hrun
  rw [returns_bytes len input data rest hrun]
  exact hlen

theorem Returns.many {item : Reader α} {Q : α → Prop} (h : Returns item Q) (n : Nat) :
    Returns (many item n) fun items ↦ ∀ a ∈ items, Q a := by
  induction n with
  | zero => exact .pure nofun
  | succ n ih =>
    refine h.bind fun a ha ↦ ih.bind fun items hitems ↦ .pure ?_
    exact List.forall_mem_cons.mpr ⟨ha, hitems⟩

theorem returns_many_length (item : Reader α) (n : Nat) :
    Returns (many item n) (·.length = n) := by
  induction n with
  | zero => exact .pure rfl
  | succ n ih =>
    refine (Returns.any item).bind fun a _ ↦ ih.bind fun items hitems ↦ .pure ?_
    rw [List.length_cons, hitems]

theorem Returns.counted {item : Reader α} {Q : α → Prop} (h : Returns item Q) :
    Returns (counted item) fun items ↦ ∀ a ∈ items, Q a :=
  (Returns.any _).bind fun n _ ↦ h.many n

theorem Returns.whole {reader : Reader α} {Q : α → Prop} (h : Returns reader Q) {input : Bytes}
    {a : α} (hread : whole reader input = some a) : Q a := by
  unfold Wire.whole at hread
  split at hread
  · rename_i b hrun
    cases hread
    exact h input a [] hrun
  · cases hread

end Wire
