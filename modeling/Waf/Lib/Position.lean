import Waf.Lib.Text

/-!
# Positions

The first position of a piece in a list, as a scan over the windows of its length finds it. A position
that is found stays when more follows (`position_append`), and a list that is long enough has the
positions that it has with more behind it (`position_of_append`). The second part is about the lines of a
message, which an empty line ends.
-/

namespace Lib

variable {α : Type}

lemma prefix_drop_append {piece s t : List α} {p : Nat} (h : piece <+: s.drop p) :
    piece <+: (s ++ t).drop p := by
  rw [List.drop_append]
  exact h.trans (List.prefix_append _ _)

variable [DecidableEq α]

/-- The first position of a piece (`windows(n).position(|w| w == piece)`, with a piece of `n` elements). -/
def position (piece : List α) : List α → Option Nat
  | [] => none
  | x :: xs => if piece.isPrefixOf (x :: xs) then some 0 else (position piece xs).map (· + 1)

variable {piece s t : List α} {p q n : Nat} {x y : α}

lemma position_cons_of_not (h : ¬ piece <+: x :: s) :
    position piece (x :: s) = (position piece s).map (· + 1) := by
  rw [position, if_neg fun hp => h (List.isPrefixOf_iff_prefix.mp hp)]

lemma position_start (h : piece <+: x :: s) : position piece (x :: s) = some 0 := by
  rw [position, if_pos (List.isPrefixOf_iff_prefix.mpr h)]

/-- The piece stands at the position, and at none before it. -/
lemma position_eq_some (hne : piece ≠ []) :
    position piece s = some p ↔ piece <+: s.drop p ∧ ∀ q < p, ¬ piece <+: s.drop q := by
  induction s generalizing p with
  | nil =>
    constructor
    · intro h
      cases h
    · rintro ⟨h, -⟩
      rw [List.drop_nil] at h
      exact absurd (List.prefix_nil.mp h) hne
  | cons x s ih =>
    by_cases hx : piece <+: x :: s
    case pos =>
      rw [position_start hx]
      constructor
      · intro h
        cases h
        exact ⟨hx, fun q hq => absurd hq (Nat.not_lt_zero q)⟩
      · rintro ⟨-, hfirst⟩
        cases p with
        | zero => rfl
        | succ p => exact absurd hx (hfirst 0 (Nat.succ_pos p))
    case neg =>
      rw [position_cons_of_not hx]
      cases p with
      | zero =>
        constructor
        · intro h
          obtain ⟨q, -, hq⟩ := Option.map_eq_some_iff.mp h
          cases hq
        · rintro ⟨h, -⟩
          exact absurd h hx
      | succ p =>
        rw [Option.map_eq_some_iff]
        constructor
        · rintro ⟨q, hq, he⟩
          obtain rfl := Nat.succ.inj he
          obtain ⟨hp, hfirst⟩ := ih.mp hq
          refine ⟨hp, fun r hr => ?_⟩
          cases r with
          | zero => exact hx
          | succ r => exact hfirst r (Nat.lt_of_succ_lt_succ hr)
        · rintro ⟨hp, hfirst⟩
          exact ⟨p, ih.mpr ⟨hp, fun r hr => hfirst (r + 1) (Nat.succ_lt_succ hr)⟩, rfl⟩

lemma position_le (hne : piece ≠ []) (h : position piece s = some p) :
    p + piece.length ≤ s.length := by
  have hlen := ((position_eq_some hne).mp h).1.length_le
  have hpos : 0 < piece.length := List.length_pos_iff.mpr hne
  rw [List.length_drop] at hlen
  omega

/-- What is found does not move when more follows. -/
lemma position_append (hne : piece ≠ []) (h : position piece s = some p) :
    position piece (s ++ t) = some p := by
  obtain ⟨hp, hfirst⟩ := (position_eq_some hne).mp h
  have hle := position_le hne h
  refine (position_eq_some hne).mpr ⟨prefix_drop_append hp, fun q hq hprefix => hfirst q hq ?_⟩
  rw [List.drop_append_of_le_length (by omega)] at hprefix
  refine List.prefix_of_prefix_length_le hprefix (List.prefix_append _ _) ?_
  rw [List.length_drop]
  omega

/-- What is found in time is found without what follows. -/
lemma position_of_append (hne : piece ≠ []) (h : position piece (s ++ t) = some p)
    (hle : p + piece.length ≤ s.length) : position piece s = some p := by
  obtain ⟨hp, hfirst⟩ := (position_eq_some hne).mp h
  refine (position_eq_some hne).mpr ⟨?_, fun q hq hprefix => hfirst q hq (prefix_drop_append hprefix)⟩
  rw [List.drop_append_of_le_length (by omega)] at hp
  refine List.prefix_of_prefix_length_le hp (List.prefix_append _ _) ?_
  rw [List.length_drop]
  omega

/-- A scan passes over a part in which the piece does not start. -/
lemma position_skip (h : ∀ x ∈ s, piece.head? ≠ some x) (hne : piece ≠ []) :
    position piece (s ++ t) = (position piece t).map (· + s.length) := by
  induction s with
  | nil => exact Option.map_id'.symm
  | cons x s ih =>
    have hx : ¬ piece <+: x :: (s ++ t) := by
      intro hp
      cases piece with
      | nil => exact hne rfl
      | cons y piece =>
        obtain ⟨rfl, -⟩ := List.cons_prefix_cons.mp hp
        exact h y (.head _) rfl
    rw [List.cons_append, position_cons_of_not hx, ih fun y hy => h y (.tail _ hy), Option.map_map]
    rfl

/-! ## Lines -/

/-- A line end. -/
def crlf : List UInt8 := [13, 10]

/-- The end of the last line of a header and the empty line behind it. -/
def doubleCrlf : List UInt8 := [13, 10, 13, 10]

/-- A line of a header: not empty, without carriage returns and line feeds. -/
structure HeaderText (line : List UInt8) : Prop where
  ne : line ≠ []
  cr : 13 ∉ line
  lf : 10 ∉ line

variable {line more rest : List UInt8} {lines : List (List UInt8)}

lemma HeaderText.append (h : HeaderText line) (hcr : 13 ∉ more) (hlf : 10 ∉ more) :
    HeaderText (line ++ more) where
  ne hnil := h.ne (List.append_eq_nil_iff.mp hnil).1
  cr hmem := (List.mem_append.mp hmem).elim h.cr hcr
  lf hmem := (List.mem_append.mp hmem).elim h.lf hlf

/-- The empty line is looked for behind header text. -/
lemma position_line (h : HeaderText line) : position doubleCrlf (line ++ rest)
    = (position doubleCrlf rest).map (· + line.length) := by
  apply position_skip
  · intro b hb hcr
    cases hcr
    exact h.cr hb
  · exact List.cons_ne_nil _ _

/-- A line end in front of a line is not the end of the header. -/
lemma position_crlf (h : HeaderText line) : position doubleCrlf (crlf ++ (line ++ rest))
    = (position doubleCrlf (line ++ rest)).map (· + 2) := by
  cases line with
  | nil => exact absurd rfl h.ne
  | cons b line =>
    have hb : ¬ doubleCrlf <+: 13 :: 10 :: b :: (line ++ rest) := by
      intro hp
      obtain ⟨-, hp⟩ := List.cons_prefix_cons.mp hp
      obtain ⟨-, hp⟩ := List.cons_prefix_cons.mp hp
      obtain ⟨hcr, -⟩ := List.cons_prefix_cons.mp hp
      exact h.cr (hcr ▸ .head _)
    have hlf : ¬ doubleCrlf <+: 10 :: b :: (line ++ rest) := by
      intro hp
      obtain ⟨hcr, -⟩ := List.cons_prefix_cons.mp hp
      cases hcr
    show position doubleCrlf (13 :: 10 :: b :: (line ++ rest)) = _
    rw [position_cons_of_not hb, position_cons_of_not hlf, Option.map_map]
    rfl

/-- The first empty line ends the lines. -/
lemma position_header (hne : lines ≠ []) (h : ∀ line ∈ lines, HeaderText line) :
    position doubleCrlf (crlf.intercalate lines ++ (doubleCrlf ++ rest))
      = some (crlf.intercalate lines).length := by
  have hend : position doubleCrlf (doubleCrlf ++ rest) = some 0 :=
    position_start (List.prefix_append _ _)
  induction lines with
  | nil => exact absurd rfl hne
  | cons line lines ih =>
    have hline := h line (.head _)
    cases lines with
    | nil =>
      rw [List.intercalate_singleton, position_line hline, hend, Option.map_some, Nat.zero_add]
    | cons next lines =>
      have hnext := h next (.tail _ (.head _))
      have htail := ih (List.cons_ne_nil _ _) fun l hl => h l (.tail _ hl)
      -- the next line starts with no line end, so this one does not end the header
      have hjoin : crlf.intercalate (next :: lines) ++ (doubleCrlf ++ rest)
          = next ++ ((crlf.intercalate (next :: lines) ++ (doubleCrlf ++ rest)).drop next.length) := by
        cases lines with
        | nil =>
          rw [List.intercalate_singleton, List.drop_left]
        | cons more lines =>
          rw [List.intercalate_cons_cons, List.append_assoc, List.append_assoc, List.drop_left]
      have hlen : crlf.length = 2 := rfl
      rw [List.intercalate_cons_cons, List.append_assoc, List.append_assoc, position_line hline,
        hjoin, position_crlf hnext, ← hjoin, htail, Option.map_some, Option.map_some,
        List.length_append, List.length_append, hlen, Nat.add_comm, Nat.add_comm _ 2,
        ← Nat.add_assoc]

end Lib
