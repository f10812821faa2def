import Mathlib

/-!
# Little-endian words

Naturals as a fixed number of bytes, the least byte first, and runs of such words.

## Key results

- `leValue_leBytes`: a word keeps a number modulo the word's range
- `readWords_append`: the words at the front of a byte string
-/

/-- The `k` low bytes of a number, the least first. -/
def leBytes : Nat → Nat → List UInt8
  | 0, _ => []
  | k + 1, n => UInt8.ofNat n :: leBytes k (n / 256)

/-- The number of a byte string, the least byte first. -/
def leValue : List UInt8 → Nat
  | [] => 0
  | b :: bs => b.toNat + 256 * leValue bs

@[simp] theorem length_leBytes (k n : Nat) : (leBytes k n).length = k := by
  induction k generalizing n with
  | zero => rfl
  | succ k ih => rw [leBytes, List.length_cons, ih]

theorem leValue_leBytes (k n : Nat) : leValue (leBytes k n) = n % 256 ^ k := by
  induction k generalizing n with
  | zero => simp [leBytes, leValue, Nat.mod_one]
  | succ k ih =>
    have hmod := Nat.mod_mul (x := n) (a := 256) (b := 256 ^ k)
    rw [leBytes, leValue, ih, Nat.pow_succ, Nat.mul_comm (256 ^ k), hmod]
    simp

/-- A word is below its range. -/
theorem leValue_lt (bs : List UInt8) : leValue bs < 256 ^ bs.length := by
  induction bs with
  | nil => decide
  | cons b bs ih =>
    have hb := b.toNat_lt
    rw [leValue, List.length_cons, Nat.pow_succ]
    omega

/-- The word of `k` bytes at the front of a byte string, and what is left of it. -/
def readWord (k : Nat) (bytes : List UInt8) : Option (Nat × List UInt8) :=
  if k ≤ bytes.length then some (leValue (bytes.take k), bytes.drop k) else none

theorem readWord_append (k n : Nat) (rest : List UInt8) :
    readWord k (leBytes k n ++ rest) = some (n % 256 ^ k, rest) := by
  rw [readWord, if_pos (by simp), List.drop_left' (length_leBytes k n),
    List.take_left' (length_leBytes k n), leValue_leBytes]

theorem readWord_eq_some {k n : Nat} {bytes rest : List UInt8}
    (h : readWord k bytes = some (n, rest)) : bytes.length = k + rest.length ∧ n < 256 ^ k := by
  unfold readWord at h
  split at h
  · rename_i hk
    cases h
    have hword := leValue_lt (bytes.take k)
    rw [List.length_take, Nat.min_eq_left hk] at hword
    rw [List.length_drop]
    exact ⟨by omega, hword⟩
  · cases h

/-- The `count` words of `k` bytes at the front of a byte string, and what is left of it. -/
def readWords (k : Nat) : Nat → List UInt8 → Option (List Nat × List UInt8)
  | 0, bytes => some ([], bytes)
  | count + 1, bytes =>
    (readWord k bytes).bind fun word =>
      (readWords k count word.2).map fun words => (word.1 :: words.1, words.2)

/-- A run of words is read back, each modulo its range. -/
theorem readWords_append (k : Nat) (ns : List Nat) (rest : List UInt8) :
    readWords k ns.length (ns.flatMap (leBytes k) ++ rest) =
      some (ns.map (· % 256 ^ k), rest) := by
  induction ns with
  | nil => rfl
  | cons n ns ih =>
    rw [List.flatMap_cons, List.append_assoc, List.length_cons, readWords, readWord_append]
    show (readWords k ns.length (ns.flatMap (leBytes k) ++ rest)).map _ = _
    rw [ih]
    rfl

/-- What reading words takes off the front, and what the words are. -/
theorem readWords_eq_some {k count : Nat} {bytes rest : List UInt8} {ns : List Nat}
    (h : readWords k count bytes = some (ns, rest)) :
    bytes.length = count * k + rest.length ∧ ∀ n ∈ ns, n < 256 ^ k := by
  induction count generalizing bytes ns with
  | zero =>
    cases h
    simp
  | succ count ih =>
    obtain ⟨word, hword, hwords⟩ := Option.bind_eq_some_iff.mp h
    obtain ⟨words, hrest, heq⟩ := Option.map_eq_some_iff.mp hwords
    cases heq
    obtain ⟨hlength, hlt⟩ := readWord_eq_some hword
    obtain ⟨hlengths, hlts⟩ := ih hrest
    constructor
    · rw [Nat.succ_mul]
      omega
    · exact List.forall_mem_cons.mpr ⟨hlt, hlts⟩
