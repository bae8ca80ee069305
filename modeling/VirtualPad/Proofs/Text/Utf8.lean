import Mathlib.Tactic.SplitIfs
import VirtualPad.Text.Utf8

/-!
# Reading back what was written

The bytes of a character are one piece, whatever follows them, and a part of them that ends before
the last is one piece that is ill-formed. So written text reads back, and a cut inside a character
leaves one replacement character in its place.
-/
namespace VirtualPad.Utf8

theorem piece_two {b : UInt8} (hl : 0xC2 ≤ b.toNat) (hu : b.toNat < 0xE0) (rest : List UInt8) :
    piece b rest = two b rest := by
  simp only [piece, UInt8.lt_iff_toNat_lt, UInt8.reduceToNat]
  rw [if_neg (by omega), if_neg (by omega), if_pos hu]

theorem piece_three {b : UInt8} (hl : 0xE0 ≤ b.toNat) (hu : b.toNat < 0xF0) (rest : List UInt8) :
    piece b rest = three b rest := by
  simp only [piece, UInt8.lt_iff_toNat_lt, UInt8.reduceToNat]
  rw [if_neg (by omega), if_neg (by omega), if_neg (by omega), if_pos hu]

theorem piece_four {b : UInt8} (hl : 0xF0 ≤ b.toNat) (hu : b.toNat < 0xF5) (rest : List UInt8) :
    piece b rest = four b rest := by
  simp only [piece, UInt8.lt_iff_toNat_lt, UInt8.reduceToNat]
  rw [if_neg (by omega), if_neg (by omega), if_neg (by omega), if_neg (by omega), if_pos hu]

def continuation (n : Nat) : UInt8 := .ofNat (n % 64 + 128)

theorem toNat_continuation (n : Nat) : (continuation n).toNat = n % 64 + 128 := by
  rw [continuation, UInt8.toNat_ofNat']
  omega

theorem isContinuation_continuation (n : Nat) : isContinuation (continuation n) = true := by
  simp only [isContinuation, UInt8.le_iff_toNat_le, UInt8.lt_iff_toNat_lt, toNat_continuation,
    UInt8.reduceToNat, Bool.and_eq_true, decide_eq_true_eq]
  omega

theorem payload_continuation (n : Nat) : payload (continuation n) = n % 64 := by
  rw [payload, toNat_continuation]
  omega

theorem mayFollow_of_three {b : UInt8} {v : Nat} (hb : b.toNat = v / 4096 + 224)
    (hl : 0x800 ≤ v) (hu : v < 0x10000) (hs : v < 0xD800 ∨ 0xDFFF < v) :
    mayFollow b (continuation (v / 64)) = true := by
  simp only [mayFollow, isContinuation, ← UInt8.toNat_inj, UInt8.le_iff_toNat_le,
    UInt8.lt_iff_toNat_lt, toNat_continuation, UInt8.reduceToNat, hb]
  split_ifs <;> simp only [Bool.and_eq_true, decide_eq_true_eq] <;> omega

theorem mayFollow_of_four {b : UInt8} {v : Nat} (hb : b.toNat = v / 262144 + 240)
    (hl : 0x10000 ≤ v) (hu : v < 0x110000) :
    mayFollow b (continuation (v / 4096)) = true := by
  simp only [mayFollow, isContinuation, ← UInt8.toNat_inj, UInt8.le_iff_toNat_le,
    UInt8.lt_iff_toNat_lt, toNat_continuation, UInt8.reduceToNat, hb]
  split_ifs <;> simp only [Bool.and_eq_true, decide_eq_true_eq] <;> omega

theorem char_bounds (c : Char) : c.toNat < 0xD800 ∨ 0xDFFF < c.toNat ∧ c.toNat < 0x110000 :=
  c.valid

/-- `b` and `tail` are read as `c` when they are all there, and as one ill-formed part when they
are not. -/
structure Writes (c : Char) (b : UInt8) (tail : List UInt8) : Prop where
  whole : ∀ rest, piece b (tail ++ rest) = ⟨some c, tail.length⟩
  part : ∀ k < tail.length, piece b (tail.take k) = ⟨none, k⟩

theorem writes_one {c : Char} (hu : c.toNat < 0x80) : Writes c (.ofNat c.toNat) [] := by
  have hb : (UInt8.ofNat c.toNat).toNat = c.toNat := by
    rw [UInt8.toNat_ofNat']
    omega
  refine ⟨?_, ?_⟩
  · intro rest
    rw [piece, if_pos (by rw [UInt8.lt_iff_toNat_lt, hb]; exact hu), hb, Char.ofNat_toNat]
    rfl
  · intro k hk
    exact absurd hk (Nat.not_lt_zero k)

theorem writes_two {c : Char} (hl : 0x80 ≤ c.toNat) (hu : c.toNat < 0x800) :
    Writes c (.ofNat (c.toNat / 64 + 192)) [continuation c.toNat] := by
  have hb : (UInt8.ofNat (c.toNat / 64 + 192)).toNat = c.toNat / 64 + 192 := by
    rw [UInt8.toNat_ofNat']
    omega
  have hc : (c.toNat / 64 + 192) % 32 * 64 + c.toNat % 64 = c.toNat := by omega
  refine ⟨?_, ?_⟩
  · intro rest
    rw [piece_two (by omega) (by omega)]
    simp only [List.cons_append, two, isContinuation_continuation, if_true, hb,
      payload_continuation, hc, Char.ofNat_toNat, List.length_singleton]
  · intro k hk
    obtain rfl : k = 0 := by simpa using hk
    rw [piece_two (by omega) (by omega)]
    rfl

theorem writes_three {c : Char} (hl : 0x800 ≤ c.toNat) (hu : c.toNat < 0x10000) :
    Writes c (.ofNat (c.toNat / 4096 + 224))
      [continuation (c.toNat / 64), continuation c.toNat] := by
  have hb : (UInt8.ofNat (c.toNat / 4096 + 224)).toNat = c.toNat / 4096 + 224 := by
    rw [UInt8.toNat_ofNat']
    omega
  have hc : (c.toNat / 4096 + 224) % 16 * 4096 + c.toNat / 64 % 64 * 64 + c.toNat % 64 =
      c.toNat := by
    omega
  have hf := mayFollow_of_three hb hl hu ((char_bounds c).imp_right And.left)
  refine ⟨?_, ?_⟩
  · intro rest
    rw [piece_three (by omega) (by omega)]
    simp only [List.cons_append, three, hf, isContinuation_continuation, if_true, hb,
      payload_continuation, hc, Char.ofNat_toNat, List.length_cons, List.length_nil]
  · intro k hk
    rw [piece_three (by omega) (by omega)]
    match k, hk with
    | 0, _ => rfl
    | 1, _ => simp only [List.take, three, hf, if_true]

theorem writes_four {c : Char} (hl : 0x10000 ≤ c.toNat) :
    Writes c (.ofNat (c.toNat / 262144 + 240))
      [continuation (c.toNat / 4096), continuation (c.toNat / 64), continuation c.toNat] := by
  have hu : c.toNat < 0x110000 := by
    have := char_bounds c
    omega
  have hb : (UInt8.ofNat (c.toNat / 262144 + 240)).toNat = c.toNat / 262144 + 240 := by
    rw [UInt8.toNat_ofNat']
    omega
  have hc : (c.toNat / 262144 + 240) % 8 * 262144 + c.toNat / 4096 % 64 * 4096 +
      c.toNat / 64 % 64 * 64 + c.toNat % 64 = c.toNat := by
    omega
  have hf := mayFollow_of_four hb hl hu
  refine ⟨?_, ?_⟩
  · intro rest
    rw [piece_four (by omega) (by omega)]
    simp only [List.cons_append, four, hf, isContinuation_continuation, if_true, hb,
      payload_continuation, hc, Char.ofNat_toNat, List.length_cons, List.length_nil]
  · intro k hk
    rw [piece_four (by omega) (by omega)]
    match k, hk with
    | 0, _ => rfl
    | 1, _ => simp only [List.take, four, hf, if_true]
    | 2, _ => simp only [List.take, four, hf, isContinuation_continuation, if_true]

theorem exists_writes (c : Char) :
    ∃ b tail, String.utf8EncodeChar c = b :: tail ∧ Writes c b tail := by
  have hc := char_bounds c
  have hv : c.val.toNat = c.toNat := rfl
  simp only [String.utf8EncodeChar, hv]
  split_ifs with h1 h2 h3
  · exact ⟨_, _, rfl, writes_one (by omega)⟩
  · rw [Nat.mod_eq_of_lt (b := 32) (by omega)]
    exact ⟨_, _, rfl, writes_two (by omega) (by omega)⟩
  · rw [Nat.mod_eq_of_lt (b := 16) (by omega)]
    exact ⟨_, _, rfl, writes_three (by omega) (by omega)⟩
  · rw [Nat.mod_eq_of_lt (b := 8) (by omega)]
    exact ⟨_, _, rfl, writes_four (by omega)⟩

theorem piecesFrom_append (skipped rest : List UInt8) :
    piecesFrom skipped.length (skipped ++ rest) = pieces rest := by
  induction skipped with
  | nil => rfl
  | cons b skipped ih => exact ih

theorem pieces_char_append (c : Char) (rest : List UInt8) :
    pieces (String.utf8EncodeChar c ++ rest) = some c :: pieces rest := by
  obtain ⟨b, tail, he, hw⟩ := exists_writes c
  rw [he, List.cons_append, pieces, piecesFrom, hw.whole, piecesFrom_append]

theorem pieces_encode (cs : List Char) :
    pieces (cs.flatMap String.utf8EncodeChar) = cs.map some := by
  induction cs with
  | nil => rfl
  | cons c cs ih => rw [List.flatMap_cons, pieces_char_append, ih, List.map_cons]

theorem decode?_encode (text : String) : decode? (encode text) = some text := by
  have hall := List.mapM_pure (m := Option) (f := id) (l := text.toList)
  rw [List.map_id] at hall
  rw [decode?, encode, pieces_encode, List.mapM_map]
  refine (congrArg (Option.map String.ofList) hall).trans ?_
  exact congrArg some String.ofList_toList

/-- What is left of a character that is cut inside is one ill-formed part. -/
theorem pieces_char_take (c : Char) {k : Nat} (hk : 0 < k) (hu : k < c.utf8Size) :
    pieces ((String.utf8EncodeChar c).take k) = [none] := by
  obtain ⟨b, tail, he, hw⟩ := exists_writes c
  have hl : tail.length + 1 = c.utf8Size := by
    rw [← String.length_utf8EncodeChar, he, List.length_cons]
  obtain ⟨k, rfl⟩ : ∃ m, k = m + 1 := ⟨k - 1, by omega⟩
  have hp := piecesFrom_append (tail.take k) []
  rw [List.append_nil, List.length_take, Nat.min_eq_left (by omega)] at hp
  rw [he, List.take_succ_cons, pieces, piecesFrom, hw.part k (by omega), hp]
  rfl

/-! ## Cutting -/

def size (cs : List Char) : Nat := (cs.flatMap String.utf8EncodeChar).length

theorem size_nil : size [] = 0 := rfl

theorem size_cons (c : Char) (cs : List Char) : size (c :: cs) = c.utf8Size + size cs := by
  rw [size, List.flatMap_cons, List.length_append, String.length_utf8EncodeChar]
  rfl

theorem size_append (cs ds : List Char) : size (cs ++ ds) = size cs + size ds := by
  simp only [size, List.flatMap_append, List.length_append]

theorem size_replacement : size [replacement] = 3 := rfl

def fitting : Nat → List Char → List Char
  | _, [] => []
  | n, c :: cs => if c.utf8Size ≤ n then c :: fitting (n - c.utf8Size) cs else []

theorem fitting_isPrefix (n : Nat) (cs : List Char) : fitting n cs <+: cs := by
  induction cs generalizing n with
  | nil => exact List.nil_prefix
  | cons c cs ih =>
    rw [fitting]
    split_ifs
    · exact List.cons_prefix_cons.mpr ⟨rfl, ih _⟩
    · exact List.nil_prefix

theorem size_fitting_le (n : Nat) (cs : List Char) : size (fitting n cs) ≤ n := by
  induction cs generalizing n with
  | nil => exact Nat.zero_le n
  | cons c cs ih =>
    rw [fitting]
    split_ifs with h
    · have hs := ih (n - c.utf8Size)
      rw [size_cons]
      omega
    · exact Nat.zero_le n

theorem isPrefix_fitting {n : Nat} {cs ds : List Char} (hp : ds <+: cs) (hs : size ds ≤ n) :
    ds <+: fitting n cs := by
  induction cs generalizing n ds with
  | nil => exact hp
  | cons c cs ih =>
    cases ds with
    | nil => exact List.nil_prefix
    | cons d ds =>
      obtain ⟨rfl, htail⟩ := List.cons_prefix_cons.mp hp
      rw [size_cons] at hs
      rw [fitting, if_pos (by omega)]
      exact List.cons_prefix_cons.mpr ⟨rfl, ih htail (by omega)⟩

theorem fitting_append {n : Nat} {cs : List Char} (h : size cs ≤ n) (ds : List Char) :
    fitting n (cs ++ ds) = cs ++ fitting (n - size cs) ds := by
  induction cs generalizing n with
  | nil => rfl
  | cons c cs ih =>
    rw [size_cons] at h
    rw [List.cons_append, fitting, if_pos (by omega), ih (by omega), size_cons, Nat.sub_add_eq]
    rfl

theorem fitting_eq_self {n : Nat} {cs : List Char} (h : size cs ≤ n) : fitting n cs = cs := by
  simpa [fitting] using fitting_append h []

def cut (n : Nat) (cs : List Char) : List Char :=
  fitting n cs ++ if size (fitting n cs) < min n (size cs) then [replacement] else []

theorem pieces_take (n : Nat) (cs : List Char) :
    pieces ((cs.flatMap String.utf8EncodeChar).take n) =
      (fitting n cs).map some ++ if size (fitting n cs) < min n (size cs) then [none] else [] := by
  induction cs generalizing n with
  | nil => simp [fitting, pieces, piecesFrom, size_nil]
  | cons c cs ih =>
    have hl : (String.utf8EncodeChar c).length = c.utf8Size := String.length_utf8EncodeChar c
    rw [List.flatMap_cons, List.take_append, hl, fitting]
    by_cases h : c.utf8Size ≤ n
    · rw [if_pos h, List.take_of_length_le (by omega), pieces_char_append, ih]
      have hc : size (c :: fitting (n - c.utf8Size) cs) < min n (size (c :: cs)) ↔
          size (fitting (n - c.utf8Size) cs) < min (n - c.utf8Size) (size cs) := by
        rw [size_cons, size_cons]
        omega
      simp only [hc, List.map_cons, List.cons_append]
    · rw [if_neg h, Nat.sub_eq_zero_of_le (by omega), List.take_zero, List.append_nil]
      rcases Nat.eq_zero_or_pos n with rfl | hn
      · simp [pieces, piecesFrom, size_nil]
      · rw [pieces_char_take c hn (by omega), if_pos (by rw [size_nil, size_cons]; omega)]
        rfl

theorem decodeLossy_take (n : Nat) (text : String) :
    decodeLossy ((encode text).take n) = .ofList (cut n text.toList) := by
  rw [decodeLossy, encode, pieces_take, cut]
  split_ifs <;> simp [Function.comp_def]

theorem cut_eq_self {n : Nat} {cs : List Char} (h : size cs ≤ n) : cut n cs = cs := by
  rw [cut, fitting_eq_self h, if_neg (by omega), List.append_nil]

theorem size_cut_le (n : Nat) (cs : List Char) : size (cut n cs) ≤ n + 2 := by
  have hf := size_fitting_le n cs
  rw [cut, size_append]
  split_ifs with h
  · rw [size_replacement]
    omega
  · rw [size_nil]
    omega

/-- A second cut at the same place changes nothing, although it may fall inside the replacement
character that the first one left. -/
theorem cut_cut (n : Nat) (cs : List Char) : cut n (cut n cs) = cut n cs := by
  have hf := size_fitting_le n cs
  by_cases h : size (fitting n cs) < min n (size cs)
  · have hc : cut n cs = fitting n cs ++ [replacement] := by rw [cut, if_pos h]
    by_cases hr : size (fitting n cs) + 3 ≤ n
    · exact cut_eq_self (by rw [hc, size_append, size_replacement]; exact hr)
    · have hr' : fitting (n - size (fitting n cs)) [replacement] = [] := by
        rw [fitting, if_neg]
        change ¬ 3 ≤ _
        omega
      rw [hc, cut, fitting_append hf, hr', List.append_nil, size_append, size_replacement,
        if_pos (by omega)]
  · have hc : cut n cs = fitting n cs := by rw [cut, if_neg h, List.append_nil]
    rw [hc, cut_eq_self hf]

end VirtualPad.Utf8
