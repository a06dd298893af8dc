import Waf.Net.Addr

/-!
# Addresses as texts

An address is read back from the text it is written as (`IpAddr.parse_toStr`), so that different
addresses have different texts (`IpAddr.toStr_inj`): a text can stand for the address, in the keys of a
table or in a query. Numbers are read back first (`readNumber_toDigits`), then groups up to the place
where a written address stops (`readGroups_groups`). The run of zeros that `::` stands for is one of the
address (`zeroes_zeros`).
-/

namespace Waf
open Lib

/-! ## Numbers -/

/-- A digit has its value. -/
lemma digitValue_digitChar {d : Nat} (h : d < 16) : digitValue (Nat.digitChar d) = d := by
  have hall : ∀ d < 16, digitValue (Nat.digitChar d) = d := by decide
  exact hall d h

variable {radix n i left : Nat} {rest s : Str}

/-- Numbers are written with digits of their radix. -/
lemma isDigitOf_of_mem_toDigits {c : Char} (h2 : 1 < radix) (h16 : radix ≤ 16)
    (h : c ∈ Nat.toDigits radix n) : isDigitOf radix c = true := by
  induction n using Nat.strongRecOn with
  | ind n ih =>
    have hdigit : ∀ d < radix, isDigitOf radix (Nat.digitChar d) = true := by
      intro d hd
      rw [isDigitOf, digitValue_digitChar (by omega)]
      exact decide_eq_true hd
    rw [Nat.toDigits_eq_if h2] at h
    split at h
    case isTrue hn =>
      rw [List.mem_singleton.mp h]
      exact hdigit n hn
    case isFalse hn =>
      rcases List.mem_append.mp h with h | h
      · exact ih (n / radix) (Nat.div_lt_self (by omega) h2) h
      · rw [List.mem_singleton.mp h]
        exact hdigit _ (Nat.mod_lt _ (by omega))

/-- The digits of a number have its value. -/
lemma foldl_toDigits (h2 : 1 < radix) (h16 : radix ≤ 16) :
    (Nat.toDigits radix n).foldl (fun n c => n * radix + digitValue c) 0 = n := by
  induction n using Nat.strongRecOn with
  | ind n ih =>
    rw [Nat.toDigits_eq_if h2]
    split
    case isTrue hn =>
      rw [List.foldl_cons, List.foldl_nil, digitValue_digitChar (by omega)]
      omega
    case isFalse hn =>
      have hmod : n % radix < radix := Nat.mod_lt _ (by omega)
      rw [List.foldl_concat, ih (n / radix) (Nat.div_lt_self (by omega) h2),
        digitValue_digitChar (by omega)]
      exact Nat.div_add_mod' n radix

/-- Only zero is written with a leading zero. -/
lemma eq_zero_of_head (h2 : 1 < radix) (h16 : radix ≤ 16)
    (h : (Nat.toDigits radix n).head? = some '0') : n = 0 := by
  induction n using Nat.strongRecOn with
  | ind n ih =>
    rw [Nat.toDigits_eq_if h2] at h
    split at h
    case isTrue hn =>
      have hzero : Nat.digitChar n = Nat.digitChar 0 := (Option.some.inj h).trans rfl
      exact digitChar_inj (by omega) (by decide) hzero
    case isFalse hn =>
      rw [List.head?_append_of_ne_nil _ Nat.toDigits_ne_nil] at h
      have hdiv := ih (n / radix) (Nat.div_lt_self (by omega) h2) h
      rw [Nat.div_eq_zero_iff] at hdiv
      omega

/-- A text at which a number stops. -/
def Stops (radix : Nat) (rest : Str) : Prop := ∀ c ∈ rest.head?, isDigitOf radix c = false

/-- Digits are read up to where the text stops. -/
lemma Stops.takeWhile {t : Str} (h : Stops radix rest) (ht : ∀ c ∈ t, isDigitOf radix c = true) :
    (t ++ rest).takeWhile (isDigitOf radix) = t ∧ (t ++ rest).dropWhile (isDigitOf radix) = rest := by
  induction t with
  | nil =>
    cases rest with
    | nil => exact ⟨rfl, rfl⟩
    | cons c rest =>
      have hc : ¬ isDigitOf radix c = true := Bool.eq_false_iff.mp (h c rfl)
      exact ⟨List.takeWhile_cons_of_neg hc, List.dropWhile_cons_of_neg hc⟩
  | cons c t ih =>
    obtain ⟨htake, hdrop⟩ := ih fun d hd => ht d (List.mem_cons_of_mem c hd)
    rw [List.cons_append, List.takeWhile_cons_of_pos (ht c (.head _)),
      List.dropWhile_cons_of_pos (ht c (.head _)), htake, hdrop]
    exact ⟨rfl, rfl⟩

/-- A written number is read back. -/
lemma readNumber_toDigits {maxDigits bound : Nat} {allow : Bool} (h2 : 1 < radix) (h16 : radix ≤ 16)
    (hmax : 0 < maxDigits) (hlen : n < radix ^ maxDigits) (hbound : n < bound)
    (hrest : Stops radix rest) :
    readNumber radix maxDigits allow bound (Nat.toDigits radix n ++ rest) = some (n, rest) := by
  obtain ⟨htake, hdrop⟩ := hrest.takeWhile (t := Nat.toDigits radix n)
    fun c hc => isDigitOf_of_mem_toDigits h2 h16 hc
  have hvalue := foldl_toDigits (n := n) h2 h16
  have hlength := Nat.toDigits_length radix n maxDigits hmax hlen
  have hpos := Nat.length_toDigits_pos (b := radix) (n := n)
  have hzero : ¬ (!allow && (Nat.toDigits radix n).head? == some '0'
      && decide (1 < (Nat.toDigits radix n).length)) = true := by
    intro h
    obtain ⟨h, hone⟩ := Bool.and_eq_true_iff.mp h
    have hhead := eq_of_beq (Bool.and_eq_true_iff.mp h).2
    rw [eq_zero_of_head h2 h16 hhead, Nat.toDigits_zero] at hone
    exact absurd (of_decide_eq_true hone) (by decide)
  simp only [readNumber, htake, hdrop, hvalue]
  rw [if_neg (by omega), if_neg hzero]

/-- No number begins with a character that is no digit. -/
lemma readNumber_stops {maxDigits bound : Nat} {allow : Bool} (h : Stops radix s) :
    readNumber radix maxDigits allow bound s = none := by
  have htake := (h.takeWhile (t := []) nofun).1
  rw [List.nil_append] at htake
  simp only [readNumber, htake]
  exact if_pos (.inl rfl)

lemma stops_nil : Stops radix [] := nofun

lemma stops_cons {c : Char} (h : isDigitOf radix c = false) : Stops radix (c :: rest) := by
  intro d hd
  cases hd
  exact h

lemma stops_colon (h16 : radix ≤ 16) : Stops radix (':' :: rest) := by
  refine stops_cons (decide_eq_false ?_)
  have hvalue : digitValue ':' = 16 := by decide
  omega

lemma stops_dot (h16 : radix ≤ 16) : Stops radix ('.' :: rest) := by
  refine stops_cons (decide_eq_false ?_)
  have hvalue : digitValue '.' = 16 := by decide
  omega

/-! ## IPv4 -/

/-- An IPv4 address is four bytes. -/
lemma exists_new (a : Ipv4Addr) : ∃ w x y z, a = .new w x y z := by
  obtain ⟨⟨⟨l⟩, hl⟩⟩ := a
  match l, hl with
  | [w, x, y, z], _ => exact ⟨w, x, y, z, rfl⟩

/-- An octet is read back, behind a dot unless it is the first. -/
lemma readOctet (o : UInt8) (hrest : Stops 10 rest) :
    readNumber 10 3 false 256 (dec o.toNat ++ rest) = some (o.toNat, rest) := by
  have ho := o.toNat_lt
  exact readNumber_toDigits (by decide) (by decide) (by decide) (by omega) ho hrest

lemma readSeparator_zero {α : Type} {sep : Char} {inner : Reader α} :
    readSeparator sep 0 inner s = inner s := rfl

lemma readSeparator_succ {α : Type} {sep : Char} {inner : Reader α} (hi : 0 < i) :
    readSeparator sep i inner (sep :: s) = inner s := by
  rw [readSeparator, if_pos hi]
  show (readGivenChar sep (sep :: s)).bind _ = _
  rw [readGivenChar, if_pos rfl]
  rfl

/-- Without the separator nothing is read. -/
lemma readSeparator_none {α : Type} {sep : Char} {inner : Reader α} (hi : 0 < i)
    (h : s.head? ≠ some sep) : readSeparator sep i inner s = none := by
  rw [readSeparator, if_pos hi]
  show (readGivenChar sep s).bind _ = _
  cases s with
  | nil => rfl
  | cons c s =>
    rw [readGivenChar, if_neg fun hc => h (congrArg some hc)]
    rfl

/-- An IPv4 address is written as its bytes with dots in between. -/
lemma Ipv4Addr.toStr_new {w x y z : UInt8} : (Ipv4Addr.new w x y z).toStr
    = dec w.toNat ++ '.' :: (dec x.toNat ++ '.' :: (dec y.toNat ++ '.' :: dec z.toNat)) := by
  simp [Ipv4Addr.toStr, Ipv4Addr.new]

/-- A written IPv4 address is read back. -/
lemma readIpv4Addr_toStr (a : Ipv4Addr) (hrest : Stops 10 rest) :
    readIpv4Addr (a.toStr ++ rest) = some (a, rest) := by
  obtain ⟨w, x, y, z, rfl⟩ := exists_new a
  have hdot : ∀ {t : Str}, Stops 10 ('.' :: t) := stops_dot (by decide)
  show (readSeparator '.' 0 (readNumber 10 3 false 256) _).bind _ = _
  rw [Ipv4Addr.toStr_new, List.append_assoc, List.cons_append, readSeparator_zero, readOctet w hdot,
    Option.bind_some]
  show (readSeparator '.' 1 (readNumber 10 3 false 256) _).bind _ = _
  rw [readSeparator_succ (by decide), List.append_assoc, List.cons_append, readOctet x hdot,
    Option.bind_some]
  show (readSeparator '.' 2 (readNumber 10 3 false 256) _).bind _ = _
  rw [readSeparator_succ (by decide), List.append_assoc, List.cons_append, readOctet y hdot,
    Option.bind_some]
  show (readSeparator '.' 3 (readNumber 10 3 false 256) _).bind _ = _
  rw [readSeparator_succ (by decide), readOctet z hrest, Option.bind_some]
  show some (Ipv4Addr.new (.ofNat w.toNat) (.ofNat x.toNat) (.ofNat y.toNat) (.ofNat z.toNat), rest) = _
  simp only [UInt8.ofNat_toNat]

/-- No IPv4 address is read from a text without a dot. -/
lemma readIpv4Addr_none (h : '.' ∉ s) : readIpv4Addr s = none := by
  show (readNumber 10 3 false 256 s).bind _ = _
  cases hread : readNumber 10 3 false 256 s with
  | none => rfl
  | some p =>
    obtain ⟨n, t⟩ := p
    have htext : t = s.dropWhile (isDigitOf 10) := by
      simp only [readNumber] at hread
      split at hread
      case isTrue => cases hread
      case isFalse =>
        split at hread
        case isTrue => cases hread
        case isFalse => exact (Prod.mk.inj (Option.some.inj hread)).2.symm
    have hhead : t.head? ≠ some '.' := by
      intro hdot
      have hmem := List.mem_of_mem_head? (Option.mem_def.mpr hdot)
      exact h ((List.dropWhile_sublist _).subset (htext ▸ hmem))
    rw [Option.bind_some]
    show (readSeparator '.' 1 (readNumber 10 3 false 256) t).bind _ = _
    rw [readSeparator_none (by decide) hhead]
    rfl

/-- Nor from one that begins with no digit. -/
lemma readIpv4Addr_stops (h : Stops 10 s) : readIpv4Addr s = none := by
  show (readNumber 10 3 false 256 s).bind _ = _
  rw [readNumber_stops h]
  rfl

/-! ## Groups -/

/-- The groups of an address from the one with number `i` on, each but the first behind a colon. -/
def groupsFrom : Nat → List UInt16 → Str
  | _, [] => []
  | i, g :: gs =>
    (if 0 < i then [':'] else []) ++ Nat.toDigits 16 g.toNat ++ groupsFrom (i + 1) gs

variable {gs : List UInt16}

lemma groupsFrom_succ (hi : 0 < i) :
    groupsFrom i gs = gs.flatMap fun g => ':' :: Nat.toDigits 16 g.toNat := by
  induction gs generalizing i with
  | nil => rfl
  | cons g gs ih =>
    rw [groupsFrom, if_pos hi, ih (Nat.succ_pos i)]
    rfl

/-- Groups are written as `groupsFrom` has them. -/
lemma fmtSubslice_eq : Ipv6Addr.fmtSubslice gs = groupsFrom 0 gs := by
  cases gs with
  | nil => rfl
  | cons g gs =>
    rw [groupsFrom, if_neg (Nat.lt_irrefl 0), groupsFrom_succ (by decide), List.nil_append]
    induction gs generalizing g with
    | nil => simp [Ipv6Addr.fmtSubslice]
    | cons g' gs ih =>
      have htail := ih g'
      rw [Ipv6Addr.fmtSubslice, List.map_cons] at htail ⊢
      rw [List.map_cons, List.intercalate_cons_cons, htail, List.flatMap_cons, List.append_assoc]
      rfl

/-- Groups have no dots. -/
lemma dot_notMem_groupsFrom (i : Nat) (gs : List UInt16) : '.' ∉ groupsFrom i gs := by
  induction gs generalizing i with
  | nil => exact List.not_mem_nil
  | cons g gs ih =>
    have hdigits : '.' ∉ Nat.toDigits 16 g.toNat := by
      intro h
      have hhex := isHexLower_of_mem_toDigits h
      exact absurd hhex (by decide)
    have hcolon : '.' ∉ if 0 < i then [':'] else [] := by
      split
      case isTrue => decide
      case isFalse => decide
    rw [groupsFrom, List.mem_append, List.mem_append, not_or, not_or]
    exact ⟨⟨hcolon, hdigits⟩, ih (i + 1)⟩

/-- A text that cannot continue the groups of an address: it is over, or goes on with `::`. -/
inductive Ends : Str → Prop
  | nil : Ends []
  | gap (s : Str) : Ends (':' :: ':' :: s)

/-- A text that ends groups stops a number. -/
lemma Ends.stops (h : Ends rest) (h16 : radix ≤ 16) : Stops radix rest := by
  cases h with
  | nil => exact stops_nil
  | gap => exact stops_colon h16

/-- What comes behind the colon is no group either. -/
lemma Ends.separator {α : Type} {inner : Reader α} (h : Ends rest)
    (hinner : ∀ t, Stops 16 t → inner t = none) : readSeparator ':' i inner rest = none := by
  by_cases hi : 0 < i
  case pos =>
    cases h with
    | nil => exact readSeparator_none hi nofun
    | gap s =>
      rw [readSeparator_succ hi]
      exact hinner _ (stops_colon (by decide))
  case neg =>
    obtain rfl : i = 0 := Nat.eq_zero_of_not_pos hi
    exact hinner _ (h.stops (by decide))

lemma stops_ten (h : Stops 16 s) : Stops 10 s := by
  intro c hc
  have hsixteen := of_decide_eq_false (h c hc)
  exact decide_eq_false (by omega)

/-- The first group is read back, behind a colon unless it is at the beginning. -/
lemma readGroup (g : UInt16) (hrest : Stops 16 rest) :
    readSeparator ':' i (readNumber 16 4 true 65536)
        ((if 0 < i then [':'] else []) ++ Nat.toDigits 16 g.toNat ++ rest)
      = some (g.toNat, rest) := by
  have hg := g.toNat_lt
  have hread : readNumber 16 4 true 65536 (Nat.toDigits 16 g.toNat ++ rest) = some (g.toNat, rest) :=
    readNumber_toDigits (by decide) (by decide) (by decide) (by omega) (by omega) hrest
  by_cases hi : 0 < i
  case pos =>
    rw [if_pos hi, List.append_assoc, List.singleton_append, readSeparator_succ hi]
    exact hread
  case neg =>
    obtain rfl : i = 0 := Nat.eq_zero_of_not_pos hi
    rw [if_neg hi, List.nil_append, readSeparator_zero]
    exact hread

/-- A group is followed by a colon or by what ends the groups. -/
lemma stops_groupsFrom (hrest : Ends rest) : Stops 16 (groupsFrom (i + 1) gs ++ rest) := by
  cases gs with
  | nil => exact hrest.stops (by decide)
  | cons g gs =>
    rw [groupsFrom, if_pos (Nat.succ_pos i)]
    exact stops_colon (by decide)

/-- No IPv4 address is read where groups are, behind a colon or not. -/
lemma separator_ipv4_none (h : '.' ∉ s) : readSeparator ':' i readIpv4Addr s = none := by
  by_cases hi : 0 < i
  case pos =>
    cases s with
    | nil => exact readSeparator_none hi nofun
    | cons c s =>
      by_cases hc : c = ':'
      case pos =>
        subst hc
        rw [readSeparator_succ hi]
        exact readIpv4Addr_none fun hs => h (.tail _ hs)
      case neg => exact readSeparator_none hi fun hs => hc (Option.some.inj hs)
  case neg =>
    obtain rfl : i = 0 := Nat.eq_zero_of_not_pos hi
    exact readIpv4Addr_none h

/-- The groups of an address are read back, up to a text that ends them. -/
lemma readGroups_groups {left : Nat} (i : Nat) (gs : List UInt16) (hlen : gs.length ≤ left)
    (hrest : Ends rest) (hdot : '.' ∉ rest) :
    readGroups left i (groupsFrom i gs ++ rest) = ((gs, false), rest) := by
  induction left generalizing i gs with
  | zero =>
    rw [List.eq_nil_of_length_eq_zero (Nat.le_zero.mp hlen)]
    rfl
  | succ left ih =>
    have htext : '.' ∉ groupsFrom i gs ++ rest := by
      rw [List.mem_append, not_or]
      exact ⟨dot_notMem_groupsFrom i gs, hdot⟩
    have hipv4 : (if 0 < left then readSeparator ':' i readIpv4Addr (groupsFrom i gs ++ rest) else none)
        = none := by
      rw [separator_ipv4_none htext, ite_self]
    rw [readGroups, hipv4]
    cases gs with
    | nil =>
      have hnone : readSeparator ':' i (readNumber 16 4 true 65536) (groupsFrom i [] ++ rest) = none :=
        hrest.separator fun _ => readNumber_stops
      rw [hnone]
      rfl
    | cons g gs =>
      have hgroup : readSeparator ':' i (readNumber 16 4 true 65536) (groupsFrom i (g :: gs) ++ rest)
          = some (g.toNat, groupsFrom (i + 1) gs ++ rest) := by
        rw [groupsFrom, List.append_assoc _ _ rest]
        exact readGroup g (stops_groupsFrom hrest)
      rw [hgroup]
      simp only [ih (i + 1) gs (Nat.le_of_succ_le_succ hlen), UInt16.ofNat_toNat]

/-! ## The run of zeros -/

open Ipv6Addr (Span)

/-- A run of zeros in a list of segments. -/
def Zeros (xs : List UInt16) (z : Span) : Prop :=
  z.start + z.len ≤ xs.length ∧ ∀ i, z.start ≤ i → i < z.start + z.len → xs[i]? = some 0

/-- One step of the search: the longest run so far and the one that ends here. -/
def nextRuns (runs : Span × Span) (segment : UInt16 × Nat) : Span × Span :=
  if segment.1 = 0 then
    let current : Span := ⟨if runs.2.len = 0 then segment.2 else runs.2.start, runs.2.len + 1⟩
    (if runs.1.len < current.len then current else runs.1, current)
  else (runs.1, {})

def runs (xs : List UInt16) : Span × Span := xs.zipIdx.foldl nextRuns ({}, {})

variable {xs : List UInt16} {x : UInt16} {z : Span} {a : Ipv6Addr}

lemma zeros_empty : Zeros xs {} := ⟨Nat.zero_le _, fun i _ hi => absurd hi (Nat.not_lt_zero i)⟩

lemma Zeros.concat (h : Zeros xs z) : Zeros (xs ++ [x]) z := by
  obtain ⟨hlen, hzero⟩ := h
  refine ⟨by rw [List.length_append]; omega, fun i hstart hi => ?_⟩
  rw [List.getElem?_append_left (by omega)]
  exact hzero i hstart hi

/-- A run that ends here is made longer by one more zero. -/
lemma Zeros.extend (h : Zeros xs z) (hend : z.len = 0 ∨ z.start + z.len = xs.length) :
    Zeros (xs ++ [0]) ⟨if z.len = 0 then xs.length else z.start, z.len + 1⟩ := by
  obtain ⟨hlen, hzero⟩ := h
  refine ⟨?_, fun i hstart hi => ?_⟩
  · show (if z.len = 0 then xs.length else z.start) + (z.len + 1) ≤ (xs ++ [0]).length
    rw [List.length_append, List.length_singleton]
    split <;> omega
  · change (if z.len = 0 then xs.length else z.start) ≤ i at hstart
    change i < (if z.len = 0 then xs.length else z.start) + (z.len + 1) at hi
    by_cases hlast : i = xs.length
    case pos =>
      subst hlast
      rw [List.getElem?_concat_length]
    case neg =>
      have hold : z.len ≠ 0 := by
        intro hnew
        rw [if_pos hnew] at hstart hi
        omega
      rw [if_neg hold] at hstart hi
      rw [List.getElem?_append_left (by omega)]
      exact hzero i hstart (by omega)

lemma runs_concat : runs (xs ++ [x]) = nextRuns (runs xs) (x, xs.length) := by
  rw [runs, List.zipIdx_append, List.foldl_append, ← runs]
  simp

/-- The longest run and the one that ends here are runs of zeros. -/
lemma runs_zeros : Zeros xs (runs xs).1 ∧ Zeros xs (runs xs).2
    ∧ ((runs xs).2.len = 0 ∨ (runs xs).2.start + (runs xs).2.len = xs.length) := by
  induction xs using List.reverseRecOn with
  | nil => exact ⟨zeros_empty, zeros_empty, .inl rfl⟩
  | append_singleton xs x ih =>
    obtain ⟨hlongest, hcurrent, hend⟩ := ih
    rw [runs_concat, nextRuns]
    split
    case isTrue hx =>
      obtain rfl : x = 0 := hx
      have hextended := hcurrent.extend hend
      refine ⟨?_, hextended, .inr ?_⟩
      · show Zeros _ (if (runs xs).1.len < (runs xs).2.len + 1 then _ else _)
        by_cases hlonger : (runs xs).1.len < (runs xs).2.len + 1
        case pos =>
          rw [if_pos hlonger]
          exact hextended
        case neg =>
          rw [if_neg hlonger]
          exact hlongest.concat
      · show (if (runs xs).2.len = 0 then xs.length else (runs xs).2.start) + ((runs xs).2.len + 1) = _
        rw [List.length_append, List.length_singleton]
        split <;> omega
    case isFalse => exact ⟨hlongest.concat, zeros_empty, .inl rfl⟩

/-- What `::` stands for is a run of zeros. -/
lemma zeroes_zeros : Zeros a.segments.toList a.zeroes := runs_zeros.1

/-- A list without a run of zeros, and the zeros. -/
lemma Zeros.split (h : Zeros xs z) :
    xs = xs.take z.start ++ List.replicate z.len 0 ++ xs.drop (z.start + z.len) := by
  obtain ⟨hlen, hzero⟩ := h
  have hmid : (xs.drop z.start).take z.len = List.replicate z.len 0 := by
    refine List.eq_replicate_iff.mpr ⟨by rw [List.length_take, List.length_drop]; omega, ?_⟩
    intro y hy
    obtain ⟨i, hi, rfl⟩ := List.mem_iff_getElem.mp hy
    rw [List.length_take, List.length_drop] at hi
    have hget := hzero (z.start + i) (by omega) (by omega)
    rw [List.getElem_take, List.getElem_drop]
    exact List.getElem_eq_iff _ |>.mpr hget
  calc xs = xs.take z.start ++ xs.drop z.start := (List.take_append_drop _ xs).symm
    _ = xs.take z.start ++ ((xs.drop z.start).take z.len ++ (xs.drop z.start).drop z.len) := by
        rw [List.take_append_drop z.len]
    _ = xs.take z.start ++ List.replicate z.len 0 ++ xs.drop (z.start + z.len) := by
        rw [hmid, List.drop_drop, List.append_assoc]

/-! ## IPv6 -/

lemma length_segments : a.segments.toList.length = 8 := by simp

/-- An address has the segments it is put together from. -/
lemma ofFn_segments (h : xs = a.segments.toList) :
    (⟨.ofFn fun i : Fin 8 => xs.getD i 0⟩ : Ipv6Addr) = a := by
  obtain ⟨v⟩ := a
  subst h
  congr 1
  ext i hi
  rw [Vector.getElem_ofFn]
  simp [hi]

/-- All groups of an address. -/
lemma readIpv6Addr_full : readIpv6Addr (groupsFrom 0 a.segments.toList) = some (a, []) := by
  have hread := readGroups_groups 0 a.segments.toList
    (le_of_eq length_segments) Ends.nil List.not_mem_nil
  rw [List.append_nil] at hread
  simp only [readIpv6Addr, hread]
  rw [if_pos length_segments, ofFn_segments rfl]

/-- The groups before and behind `::`. -/
lemma readIpv6Addr_gap {head tail : List UInt16} {len : Nat} (hlen : 0 < len)
    (h : a.segments.toList = head ++ List.replicate len 0 ++ tail) :
    readIpv6Addr (groupsFrom 0 head ++ (':' :: ':' :: groupsFrom 0 tail)) = some (a, []) := by
  have hcount := length_segments (a := a)
  rw [h, List.length_append, List.length_append, List.length_replicate] at hcount
  have hdot : '.' ∉ ':' :: ':' :: groupsFrom 0 tail := by
    have htail := dot_notMem_groupsFrom 0 tail
    simp [htail]
  have hhead := readGroups_groups 0 head (by omega : head.length ≤ 8) (Ends.gap _) hdot
  have htail := readGroups_groups 0 tail (by omega : tail.length ≤ 8 - (head.length + 1))
    Ends.nil List.not_mem_nil
  rw [List.append_nil] at htail
  have hfill : 8 - head.length - tail.length = len := by omega
  simp only [readIpv6Addr, hhead]
  rw [if_neg (by omega), if_neg Bool.false_ne_true]
  show (some ((), _)).bind _ = _
  rw [Option.bind_some]
  show (some ((), _)).bind _ = _
  simp only [Option.bind_some, htail, hfill]
  rw [ofFn_segments h.symm]

/-- A mapped address has the prefix `::ffff` and the four bytes. -/
lemma toIpv4Mapped_eq {v4 : Ipv4Addr} (h : a.toIpv4Mapped = some v4) :
    ∃ ab cd : UInt16, a.segments.toList = [0, 0, 0, 0, 0, 0xFFFF, ab, cd]
      ∧ v4 = .new (ab / 256).toUInt8 ab.toUInt8 (cd / 256).toUInt8 cd.toUInt8 := by
  unfold Ipv6Addr.toIpv4Mapped at h
  split at h
  case h_1 ab cd hseg => exact ⟨ab, cd, hseg, (Option.some.inj h).symm⟩
  case h_2 => cases h

/-- The two bytes of a segment. -/
lemma ofNat_bytes (w : UInt16) :
    UInt16.ofNat ((w / 256).toUInt8.toNat * 256 + w.toUInt8.toNat) = w := by
  have hw := w.toNat_lt
  apply UInt16.toNat_inj.mp
  rw [UInt16.toNat_ofNat', UInt16.toNat_toUInt8, UInt16.toNat_toUInt8, UInt16.toNat_div]
  have h256 : (256 : UInt16).toNat = 256 := rfl
  rw [h256]
  omega

/-- An address that carries an IPv4 address. -/
lemma readIpv6Addr_mapped {v4 : Ipv4Addr} (h : a.toIpv4Mapped = some v4) :
    readIpv6Addr ("::ffff:".toList ++ v4.toStr) = some (a, []) := by
  obtain ⟨ab, cd, hseg, hv4⟩ := toIpv4Mapped_eq h
  have hcolons : "::ffff:".toList ++ v4.toStr
      = ':' :: ':' :: (Nat.toDigits 16 (0xFFFF : UInt16).toNat ++ ':' :: v4.toStr) := by
    have hdigits : Nat.toDigits 16 (0xFFFF : UInt16).toNat = "ffff".toList := by decide
    rw [hdigits]
    rfl
  have hhead : ∀ {t : Str}, readGroups 8 0 (':' :: t) = (([], false), ':' :: t) := by
    intro t
    have hstops : Stops 16 (':' :: t) := stops_colon (by decide)
    rw [readGroups, readSeparator_zero, readIpv4Addr_stops (stops_ten hstops), ite_self,
      readSeparator_zero, readNumber_stops hstops]
  have htail : readGroups 7 0 (Nat.toDigits 16 (0xFFFF : UInt16).toNat ++ ':' :: v4.toStr)
      = (([0xFFFF, ab, cd], true), []) := by
    have hsixteen : Stops 16 (':' :: v4.toStr) := stops_colon (by decide)
    have hten : Stops 10 (Nat.toDigits 16 (0xFFFF : UInt16).toNat ++ ':' :: v4.toStr) := by
      have hdigits : Nat.toDigits 16 (0xFFFF : UInt16).toNat = 'f' :: "fff".toList := by decide
      rw [hdigits]
      exact stops_cons (by decide)
    have hgroup := readGroup (i := 0) 0xFFFF hsixteen
    have hread := readIpv4Addr_toStr v4 stops_nil
    rw [List.append_nil] at hread
    rw [readGroups, readSeparator_zero, readIpv4Addr_stops hten, ite_self]
    rw [if_neg (Nat.lt_irrefl 0), List.nil_append] at hgroup
    rw [hgroup]
    -- the IPv4 address stands for the last two groups
    have hlast : readGroups 6 1 (':' :: v4.toStr) = (([ab, cd], true), []) := by
      rw [readGroups, if_pos (by decide), readSeparator_succ (by decide), hread, hv4]
      show (([UInt16.ofNat _, UInt16.ofNat _], true), _) = _
      have hab := ofNat_bytes ab
      have hcd := ofNat_bytes cd
      simp only [Ipv4Addr.new, Vector.getElem_mk, List.getElem_toArray, List.getElem_cons_zero,
        List.getElem_cons_succ, hab, hcd]
    simp only [hlast]
    rfl
  rw [hcolons]
  simp only [readIpv6Addr, hhead]
  rw [if_neg (by decide), if_neg Bool.false_ne_true]
  show (some ((), _)).bind _ = _
  rw [Option.bind_some]
  show (some ((), _)).bind _ = _
  simp only [Option.bind_some, List.length_nil, Nat.zero_add, htail]
  rw [ofFn_segments (by rw [hseg]; rfl)]

/-! ## Addresses -/

/-- An IPv6 address is read back. -/
lemma readIpv6Addr_toStr (a : Ipv6Addr) : readIpv6Addr a.toStr = some (a, []) := by
  unfold Ipv6Addr.toStr
  cases hmapped : a.toIpv4Mapped with
  | some v4 => exact readIpv6Addr_mapped hmapped
  | none =>
    show readIpv6Addr (if 1 < a.zeroes.len then _ else _) = _
    simp only [fmtSubslice_eq]
    split
    case isTrue hlong =>
      have hsplit := (zeroes_zeros (a := a)).split
      exact List.append_assoc _ _ _ ▸ readIpv6Addr_gap (by omega) hsplit
    case isFalse => exact readIpv6Addr_full

/-- The text of an IPv6 address is that of no IPv4 address, not even at its beginning. -/
lemma readIpv4Addr_ipv6 (a : Ipv6Addr) : readIpv4Addr a.toStr = none := by
  unfold Ipv6Addr.toStr
  cases hmapped : a.toIpv4Mapped with
  | some v4 => exact readIpv4Addr_stops (stops_colon (by decide))
  | none =>
    refine readIpv4Addr_none ?_
    show '.' ∉ if 1 < a.zeroes.len then _ else _
    simp only [fmtSubslice_eq]
    split
    case isTrue =>
      rw [List.mem_append, List.mem_append, not_or, not_or]
      exact ⟨⟨dot_notMem_groupsFrom _ _, by decide⟩, dot_notMem_groupsFrom _ _⟩
    case isFalse => exact dot_notMem_groupsFrom _ _

/-- An address is read back from its text. -/
theorem IpAddr.parse_toStr (a : IpAddr) : IpAddr.parse a.toStr = some a := by
  cases a with
  | v4 a =>
    have hread := readIpv4Addr_toStr a stops_nil
    rw [List.append_nil] at hread
    rw [IpAddr.parse, IpAddr.toStr, hread]
    rfl
  | v6 a =>
    rw [IpAddr.parse, IpAddr.toStr, readIpv4Addr_ipv6, readIpv6Addr_toStr]
    rfl

/-- Different addresses have different texts. -/
lemma IpAddr.toStr_inj {a b : IpAddr} (h : a.toStr = b.toStr) : a = b := by
  have hread := IpAddr.parse_toStr a
  rw [h, IpAddr.parse_toStr] at hread
  exact (Option.some.inj hread).symm

end Waf
