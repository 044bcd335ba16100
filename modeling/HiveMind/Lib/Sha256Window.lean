import HiveMind.Lib.Sha256

/-!
# The schedule of SHA-256 as a window

A word of the schedule depends on the sixteen before it. Here these are a window that moves on with
every round, so that no word is looked up in a list, and the operations are those that the kernel
knows of numerals. The digests are the same (`instHash256_eq`), and those of closed texts are found in a
fraction of the time.
-/

namespace Sha256

/-- Sixteen words of the schedule, the oldest first. -/
structure Window where
  (w0 w1 w2 w3 w4 w5 w6 w7 w8 w9 w10 w11 w12 w13 w14 w15 : ℕ)

namespace Window

def words : Window → List ℕ
  | ⟨a, b, c, d, e, f, g, h, i, j, k, l, m, n, o, p⟩ =>
    [a, b, c, d, e, f, g, h, i, j, k, l, m, n, o, p]

def ofBlock (block : ℕ) : Window :=
  let w (i : ℕ) := Nat.mod (Nat.shiftRight block i) 0x100000000
  ⟨w 480, w 448, w 416, w 384, w 352, w 320, w 288, w 256, w 224, w 192, w 160, w 128, w 96, w 64,
    w 32, w 0⟩

def plus (x y : ℕ) : ℕ := Nat.mod (Nat.add x y) 0x100000000

def turn (x right left : ℕ) : ℕ :=
  Nat.lor (Nat.shiftRight x right) (Nat.mod (Nat.shiftLeft x left) 0x100000000)

def xor₃ (x y z : ℕ) : ℕ := Nat.xor (Nat.xor x y) z

def next : Window → Window
  | ⟨a, b, c, d, e, f, g, h, i, j, k, l, m, n, o, p⟩ =>
    ⟨b, c, d, e, f, g, h, i, j, k, l, m, n, o, p,
      plus (plus (xor₃ (turn o 17 15) (turn o 19 13) (Nat.shiftRight o 10)) j)
        (plus (xor₃ (turn b 7 25) (turn b 18 14) (Nat.shiftRight b 3)) a)⟩

/-- One round, after which the window moves on. -/
def round : Words × Window → ℕ → Words × Window
  | (⟨a, b, c, d, e, f, g, h⟩, w), k =>
    let t := plus (plus h (xor₃ (turn e 6 26) (turn e 11 21) (turn e 25 7)))
      (plus (Nat.xor (Nat.land e f) (Nat.land (Nat.xor e 0xffffffff) g)) (plus k w.w0))
    (⟨plus t (plus (xor₃ (turn a 2 30) (turn a 13 19) (turn a 22 10))
      (xor₃ (Nat.land a b) (Nat.land a c) (Nat.land b c))), a, b, c, plus d t, e, f, g⟩, w.next)

def compress (s : Words) (block : ℕ) : Words :=
  let r := (roundConstants.foldl round (s, ofBlock block)).1
  ⟨plus s.a r.a, plus s.b r.b, plus s.c r.c, plus s.d r.d, plus s.e r.e, plus s.f r.f,
    plus s.g r.g, plus s.h r.h⟩

theorem length_schedule (block : List ℕ) (n : ℕ) :
    (schedule block n).length = n + block.length := by
  induction n with
  | zero => rw [schedule, List.length_reverse, Nat.zero_add]
  | succ n ih => rw [schedule, List.length_cons, ih, Nat.add_right_comm]

/-- The schedule goes on where the window has moved to. -/
theorem schedule_succ (w : Window) (n : ℕ) :
    schedule w.words (n + 1) = schedule w.next.words n ++ [w.w0] := by
  induction n with
  | zero => rfl
  | succ n ih =>
    have hget : ∀ i < 16, (schedule w.next.words n ++ [w.w0]).getD i 0 =
        (schedule w.next.words n).getD i 0 := by
      intro i hi
      refine List.getD_append _ _ _ _ ?_
      rw [length_schedule]
      exact Nat.lt_of_lt_of_le hi (Nat.le_add_left 16 n)
    rw [schedule, ih, schedule, List.cons_append, hget 1 (by decide), hget 6 (by decide),
      hget 14 (by decide), hget 15 (by decide)]

theorem foldl_round {ks : List ℕ} {n : ℕ} (h : ks.length ≤ n) (s : Words) (w : Window) :
    (List.zipWith add ks (schedule w.words n).reverse).foldl Sha256.round s =
      (ks.foldl round (s, w)).1 := by
  induction ks generalizing n s w with
  | nil => rfl
  | cons k ks ih =>
    obtain _ | n := n
    · exact absurd h (Nat.not_succ_le_zero _)
    · rw [schedule_succ, List.reverse_append, List.reverse_singleton, List.singleton_append,
        List.zipWith_cons_cons, List.foldl_cons, ih (Nat.le_of_succ_le_succ h)]
      rfl

theorem compress_eq (s : Words) (block : ℕ) :
    Sha256.compress s (wordsOfBlock block) = compress s block := by
  have hprefix : ∀ n, ∃ later, (schedule (wordsOfBlock block) (48 + n)).reverse =
      (schedule (wordsOfBlock block) 48).reverse ++ later := by
    intro n
    induction n with
    | zero => exact ⟨[], (List.append_nil _).symm⟩
    | succ n ih =>
      obtain ⟨later, hlater⟩ := ih
      rw [← Nat.add_assoc, schedule, List.reverse_cons, hlater, List.append_assoc]
      exact ⟨_, rfl⟩
  obtain ⟨later, hlater⟩ := hprefix 16
  -- there are words for more rounds than there are
  have hlonger : List.zipWith add roundConstants (schedule (wordsOfBlock block) 48).reverse =
      List.zipWith add roundConstants (schedule (ofBlock block).words 64).reverse := by
    have hlength : roundConstants.length = (schedule (wordsOfBlock block) 48).reverse.length := by
      rw [List.length_reverse, length_schedule]
      rfl
    have happend : List.zipWith add (roundConstants ++ []) _ = _ ++ List.zipWith add [] later :=
      List.zipWith_append hlength
    rw [List.append_nil, List.zipWith_nil_left, List.append_nil, ← hlater] at happend
    exact happend.symm
  rw [Sha256.compress, hlonger, foldl_round (Nat.le_refl 64)]
  rfl

/-- The bytes of a digest. -/
def digest (message : List UInt8) : Vector UInt8 32 :=
  let s := (blocks (message.map UInt8.toNat)).foldl compress initial
  bytesOfWord s.a ++ bytesOfWord s.b ++ bytesOfWord s.c ++ bytesOfWord s.d ++
    bytesOfWord s.e ++ bytesOfWord s.f ++ bytesOfWord s.g ++ bytesOfWord s.h

theorem digest_eq (message : List UInt8) : Sha256.digest message = digest message := by
  have hcompress : (fun s block ↦ Sha256.compress s (wordsOfBlock block)) = compress :=
    funext fun s ↦ funext fun block ↦ compress_eq s block
  rw [Sha256.digest, hash, hcompress, digest]

end Window

end Sha256

theorem instHash256_eq : instHash256 = ⟨Sha256.Window.digest⟩ :=
  congrArg Hash256.mk (funext Sha256.Window.digest_eq)
