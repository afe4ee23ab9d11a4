import Mathlib.Data.List.TakeWhile
import ZeroDowntime.ApiRegister
import ZeroDowntime.Timescale
/-!
# TimescaleIntervals — `Interval::parse`

A text is tried as a number with a unit of one or two letters right behind it, then as a number and a unit with a space in
between.  The first attempt also takes on a unit of two letters behind a space, and fails on the number.
-/
namespace ZeroDowntime
namespace Timescale

open Api.Register (isWhiteSpace)

/-- `str::trim` -/
def trim (s : List Char) : List Char :=
  ((s.dropWhile isWhiteSpace).reverse.dropWhile isWhiteSpace).reverse

/-- The integers of an `i64`. -/
def fit (n : Int) : Option Int64 := if -9223372036854775808 ≤ n ∧ n < 9223372036854775808 then some (.ofInt n) else none

def parseDigits (ds : List Char) : Option Nat :=
  if ds ≠ [] ∧ ds.all Char.isDigit then some (Nat.ofDigitChars 10 ds 0) else none

/-- `str::parse::<i64>` -/
def parseI64 : List Char → Option Int64
  | '-' :: ds => (parseDigits ds).bind (fun m => fit (-(m : Int)))
  | '+' :: ds => (parseDigits ds).bind (fun m => fit m)
  | ds => (parseDigits ds).bind (fun m => fit m)

inductive IntervalParseError
  | invalidFormat (s : List Char)
  | invalidNumber (s : List Char)
  | unknownUnit (s : List Char)
  deriving DecidableEq, Repr

/-- `str::to_lowercase`, which lowers the letters of ASCII one by one. -/
structure Lowercase where
  lower : List Char → List Char
  ascii : ∀ w, w.all Char.isAlpha = true → lower w = w.map Char.toLower

def shortUnit (unit : String) : Option (Int64 → Interval) :=
  match unit with
  | "us" => some .microseconds
  | "ms" => some .milliseconds
  | "s" => some .seconds
  | "m" => some .minutes
  | "h" => some .hours
  | "d" => some .days
  | "w" => some .weeks
  | "M" => some .months
  | _ => none

def fullUnit (unit : String) : Option (Int64 → Interval) :=
  match unit with
  | "microsecond" | "microseconds" | "us" => some .microseconds
  | "millisecond" | "milliseconds" | "ms" => some .milliseconds
  | "second" | "seconds" | "sec" | "secs" => some .seconds
  | "minute" | "minutes" | "min" | "mins" => some .minutes
  | "hour" | "hours" | "hr" | "hrs" => some .hours
  | "day" | "days" => some .days
  | "week" | "weeks" => some .weeks
  | "month" | "months" | "mon" | "mons" => some .months
  | _ => none

/-- `str::len` -/
def byteLen (s : List Char) : Nat := s.foldr (fun c n => c.utf8Size + n) 0

/-- The number is what stands before the first letter. -/
def tryParseShort (s : List Char) : Option (Except IntervalParseError Interval) :=
  let numStr := s.takeWhile (fun c => !c.isAlpha)
  let unitStr := s.dropWhile (fun c => !c.isAlpha)
  if unitStr = [] ∨ numStr = [] then none
  else if 2 < byteLen unitStr ∨ ' ' ∈ unitStr then none
  else
    match parseI64 numStr with
    | none => some (.error (.invalidNumber numStr))
    | some value => (shortUnit (String.ofList unitStr)).map (fun unit => .ok (unit value))

def Interval.parse (l : Lowercase) (text : String) : Except IntervalParseError Interval :=
  let s := trim text.toList
  match tryParseShort s with
  | some result => result
  | none =>
    match s.dropWhile (· ≠ ' ') with
    | [] => .error (.invalidFormat s)
    | _ :: rest =>
      let num := s.takeWhile (· ≠ ' ')
      match parseI64 num with
      | none => .error (.invalidNumber num)
      | some value =>
        let unit := l.lower (trim rest)
        match fullUnit (String.ofList unit) with
        | some u => .ok (u value)
        | none => .error (.unknownUnit unit)

/-! ## Numbers -/

theorem parseDigits_repr (m : Nat) : parseDigits (Nat.repr m).toList = some m := by
  have hdigits : (Nat.toDigits 10 m).all Char.isDigit = true :=
    List.all_eq_true.2 (fun c hc => Nat.isDigit_of_mem_toDigits (by decide) (by decide) hc)
  rw [Nat.toList_repr, parseDigits, if_pos ⟨Nat.toDigits_ne_nil, hdigits⟩, Nat.ofDigitChars_ten_toDigits]

theorem fit_toInt (n : Int64) : fit n.toInt = some n := by
  rw [fit, if_pos ⟨Int64.le_toInt n, Int64.toInt_lt n⟩, Int64.ofInt_toInt]

/-- A text of digits has no sign. -/
theorem parseI64_digits {ds : List Char} (h : ds.all Char.isDigit = true) :
    parseI64 ds = (parseDigits ds).bind (fun m => fit m) := by
  unfold parseI64
  split
  · rw [List.all_cons] at h
    cases h
  · rw [List.all_cons] at h
    cases h
  · rfl

theorem all_isDigit_repr (m : Nat) : (Nat.repr m).toList.all Char.isDigit = true := by
  rw [Nat.toList_repr]
  exact List.all_eq_true.2 (fun c hc => Nat.isDigit_of_mem_toDigits (by decide) (by decide) hc)

theorem display64_toList (n : Int64) : (display64 n).toList =
    if n.toInt < 0 then '-' :: (Nat.repr n.toInt.natAbs).toList else (Nat.repr n.toInt.natAbs).toList := by
  unfold display64
  split
  · rw [String.toList_append]
    rfl
  · rfl

/-- **A number is read as it is written.** -/
theorem parseI64_display (n : Int64) : parseI64 (display64 n).toList = some n := by
  rw [display64_toList]
  split
  · rename_i hneg
    have habs : -(n.toInt.natAbs : Int) = n.toInt := by omega
    rw [parseI64, parseDigits_repr, Option.bind_some, habs, fit_toInt]
  · rename_i hpos
    have habs : (n.toInt.natAbs : Int) = n.toInt := by omega
    rw [parseI64_digits (all_isDigit_repr _), parseDigits_repr, Option.bind_some, habs, fit_toInt]

theorem parseDigits_space {ds : List Char} (h : ' ' ∈ ds) : parseDigits ds = none :=
  if_neg (fun hd => absurd (List.all_eq_true.1 hd.2 ' ' h) (by decide))

/-- A number has no space. -/
theorem parseI64_space {s : List Char} (h : ' ' ∈ s) : parseI64 s = none := by
  unfold parseI64
  split
  · rw [parseDigits_space ((List.mem_cons.1 h).resolve_left (by decide))]
    rfl
  · rw [parseDigits_space ((List.mem_cons.1 h).resolve_left (by decide))]
    rfl
  · rw [parseDigits_space h]
    rfl

/-! ## Numbers and units -/

theorem mem_display64 {n : Int64} {c : Char} (h : c ∈ (display64 n).toList) : c.isDigit = true ∨ c = '-' := by
  have hdigits := List.all_eq_true.1 (all_isDigit_repr n.toInt.natAbs)
  rw [display64_toList] at h
  split at h
  · rcases List.mem_cons.1 h with rfl | h
    · exact .inr rfl
    · exact .inl (hdigits c h)
  · exact .inl (hdigits c h)

theorem display64_ne_nil (n : Int64) : (display64 n).toList ≠ [] := by
  rw [display64_toList]
  split
  · exact List.cons_ne_nil _ _
  · rw [Nat.toList_repr]
    exact Nat.toDigits_ne_nil

/-- The characters that `trim` removes are below those of numbers and letters, or far above. -/
theorem not_isWhiteSpace {c : Char} (hlow : 33 ≤ c.toNat) (hhigh : c.toNat ≤ 122) : isWhiteSpace c = false := by
  unfold isWhiteSpace
  simp only [Bool.or_eq_false_iff, Bool.and_eq_false_iff, decide_eq_false_iff_not, List.contains_eq_mem, List.mem_cons,
    List.not_mem_nil, or_false, not_or]
  refine ⟨⟨by omega, by omega⟩, ?_⟩
  omega

theorem not_isWhiteSpace_display {n : Int64} {c : Char} (h : c ∈ (display64 n).toList) :
    isWhiteSpace c = false := by
  rcases mem_display64 h with h | rfl
  · have := SqlText.isDigit_bounds h
    exact not_isWhiteSpace (by omega) (by omega)
  · rfl

theorem not_isAlpha_display {n : Int64} {c : Char} (h : c ∈ (display64 n).toList) : c.isAlpha = false := by
  refine Bool.eq_false_iff.2 (fun ha => ?_)
  have hbounds := SqlText.isAlpha_bounds ha
  rcases mem_display64 h with h | rfl
  · have := SqlText.isDigit_bounds h
    omega
  · exact absurd ha (by decide)

theorem byteLen_letters : ∀ {w : List Char}, w.all Char.isAlpha = true → byteLen w = w.length
  | [], _ => rfl
  | c :: w, h => by
    rw [List.all_cons, Bool.and_eq_true] at h
    have hc := SqlText.isAlpha_bounds h.1
    have hsize : c.utf8Size = 1 := by
      unfold Char.utf8Size
      rw [if_pos]
      show c.val ≤ 127
      rw [UInt32.le_iff_toNat_le]
      show c.val.toNat ≤ 127
      have : c.toNat = c.val.toNat := rfl
      omega
    have ih := byteLen_letters h.2
    unfold byteLen at ih ⊢
    rw [List.foldr_cons, ih, hsize, List.length_cons, Nat.add_comm]

/-- White space around a text that neither starts nor ends with any. -/
theorem trim_padded (before s after : List Char) (hbefore : before.all isWhiteSpace = true)
    (hafter : after.all isWhiteSpace = true) (hs : s ≠ [])
    (hblack : ∀ c, c ∈ s.head? ∨ c ∈ s.getLast? → isWhiteSpace c = false) : trim (before ++ s ++ after) = s := by
  have hdrop : ∀ {pad t rest : List Char}, pad.all isWhiteSpace = true → t ≠ [] →
      (∀ c ∈ t.head?, isWhiteSpace c = false) →
      (pad ++ (t ++ rest)).dropWhile isWhiteSpace = t ++ rest := by
    intro pad t rest hpad ht hhead
    rw [List.dropWhile_append_of_pos (List.all_eq_true.1 hpad)]
    cases t with
    | nil => exact absurd rfl ht
    | cons c t =>
      rw [List.cons_append, List.dropWhile_cons_of_neg]
      rw [hhead c rfl]
      exact Bool.false_ne_true
  rw [trim, List.append_assoc, hdrop hbefore hs (fun c hc => hblack c (.inl hc)), List.reverse_append,
    ← List.append_nil s.reverse, hdrop (by rwa [List.all_reverse]) (by simpa using hs), List.append_nil, List.reverse_reverse]
  intro c hc
  rw [List.head?_reverse] at hc
  exact hblack c (.inr hc)

theorem isWhiteSpace_not_alpha {c : Char} (h : isWhiteSpace c = true) : c.isAlpha = false := by
  refine Bool.eq_false_iff.2 (fun ha => ?_)
  have hbounds := SqlText.isAlpha_bounds ha
  rw [not_isWhiteSpace (by omega) hbounds.2] at h
  cases h

theorem isAlpha_not_white {c : Char} (h : c.isAlpha = true) : isWhiteSpace c = false :=
  Bool.eq_false_iff.2 (fun hw => absurd h (Bool.eq_false_iff.1 (isWhiteSpace_not_alpha hw)))

/-- A prefix without a letter, and letters behind it. -/
theorem split_letters {num w : List Char} (hnum : ∀ c ∈ num, c.isAlpha = false) (hw : w.all Char.isAlpha = true) :
    (num ++ w).takeWhile (fun c => !c.isAlpha) = num ∧ (num ++ w).dropWhile (fun c => !c.isAlpha) = w := by
  have hpos : ∀ c ∈ num, (!c.isAlpha) = true := fun c hc => by rw [hnum c hc]; rfl
  rw [List.takeWhile_append_of_pos hpos, List.dropWhile_append_of_pos hpos]
  cases w with
  | nil => exact ⟨List.append_nil _, rfl⟩
  | cons c w =>
    rw [List.all_cons, Bool.and_eq_true] at hw
    have hneg : (!c.isAlpha) = false := by rw [hw.1]; rfl
    constructor
    · rw [List.takeWhile_cons, hneg, if_neg Bool.false_ne_true, List.append_nil]
    · rw [List.dropWhile_cons, hneg, if_neg Bool.false_ne_true]

/-- The short attempt at a number-like text with letters behind it. -/
theorem tryParseShort_eq {num w : List Char} (hnum : ∀ c ∈ num, c.isAlpha = false) (hne : num ≠ [])
    (hw : w.all Char.isAlpha = true) (hunit : w ≠ []) : tryParseShort (num ++ w) =
      if 2 < w.length then none
      else match parseI64 num with
        | none => some (.error (.invalidNumber num))
        | some value => (shortUnit (String.ofList w)).map (fun unit => .ok (unit value)) := by
  have hspace : ' ' ∉ w := fun h => absurd (List.all_eq_true.1 hw ' ' h) (by decide)
  unfold tryParseShort
  obtain ⟨htake, hdrop⟩ := split_letters hnum hw
  rw [htake, hdrop]
  dsimp only
  rw [byteLen_letters hw, if_neg (by simp [hunit, hne])]
  by_cases hlen : 2 < w.length
  · rw [if_pos (.inl hlen), if_pos hlen]
  · rw [if_neg (by simp [hlen, hspace]), if_neg hlen]

/-- What is left of a number and letters, or of a number, a space and letters, once the ends are trimmed. -/
theorem trim_number (n : Int64) (before mid w after : List Char) (hbefore : before.all isWhiteSpace = true)
    (hafter : after.all isWhiteSpace = true) (hw : w.all Char.isAlpha = true) (hunit : w ≠ []) :
    trim (before ++ ((display64 n).toList ++ mid ++ w) ++ after) = (display64 n).toList ++ mid ++ w := by
  refine trim_padded _ _ _ hbefore hafter (by simp [hunit]) (fun c hc => ?_)
  rcases hc with hc | hc
  · obtain ⟨d, num, hnum⟩ := List.exists_cons_of_ne_nil (display64_ne_nil n)
    rw [hnum] at hc
    have hd : d = c := Option.some.inj hc
    exact not_isWhiteSpace_display (n := n) (by rw [hnum, hd]; exact List.mem_cons_self)
  · rw [List.getLast?_append_of_ne_nil _ hunit] at hc
    exact isAlpha_not_white (List.all_eq_true.1 hw c (List.mem_of_getLast? hc))

/-- A number with its unit right behind it. -/
theorem parse_tight (l : Lowercase) (n : Int64) (before w after : List Char)
    (hbefore : before.all isWhiteSpace = true) (hafter : after.all isWhiteSpace = true)
    (hw : w.all Char.isAlpha = true) (hunit : w ≠ []) :
    Interval.parse l (String.ofList (before ++ ((display64 n).toList ++ w) ++ after)) =
      match (if w.length ≤ 2 then shortUnit (String.ofList w) else none) with
      | some unit => .ok (unit n)
      | none => .error (.invalidFormat ((display64 n).toList ++ w)) := by
  have htrim := trim_number n before [] w after hbefore hafter hw hunit
  rw [List.append_nil] at htrim
  have hspace : ((display64 n).toList ++ w).dropWhile (· ≠ ' ') = [] := by
    refine List.dropWhile_eq_nil_iff.2 (fun c hc => decide_eq_true (fun hce => ?_))
    subst hce
    rcases List.mem_append.1 hc with hc | hc
    · exact absurd (not_isWhiteSpace_display hc) (by decide)
    · exact absurd (isAlpha_not_white (List.all_eq_true.1 hw _ hc)) (by decide)
  unfold Interval.parse
  rw [String.toList_ofList, htrim]
  dsimp only
  rw [tryParseShort_eq (fun c hc => not_isAlpha_display hc) (display64_ne_nil n) hw hunit, parseI64_display, hspace]
  by_cases hlen : w.length ≤ 2
  · rw [if_neg (by omega), if_pos hlen]
    cases shortUnit (String.ofList w) <;> rfl
  · rw [if_pos (by omega), if_neg hlen]

/-- A number and its unit with a space in between. -/
theorem parse_spaced (l : Lowercase) (n : Int64) (before gap w after : List Char)
    (hbefore : before.all isWhiteSpace = true) (hafter : after.all isWhiteSpace = true)
    (hgap : gap.all isWhiteSpace = true) (hw : w.all Char.isAlpha = true) (hunit : w ≠ []) :
    Interval.parse l (String.ofList (before ++ ((display64 n).toList ++ ' ' :: gap ++ w) ++ after)) =
      if w.length ≤ 2 then .error (.invalidNumber ((display64 n).toList ++ ' ' :: gap))
      else match fullUnit (String.ofList (w.map Char.toLower)) with
        | some unit => .ok (unit n)
        | none => .error (.unknownUnit (w.map Char.toLower)) := by
  have hnum : ∀ c ∈ (display64 n).toList ++ ' ' :: gap, c.isAlpha = false := by
    intro c hc
    rcases List.mem_append.1 hc with hc | hc
    · exact not_isAlpha_display hc
    · rcases List.mem_cons.1 hc with rfl | hc
      · rfl
      · exact isWhiteSpace_not_alpha (List.all_eq_true.1 hgap c hc)
  have hpos : ∀ c ∈ (display64 n).toList, decide (c ≠ ' ') = true := fun c hc => decide_eq_true (fun hce => by
    subst hce
    exact absurd (not_isWhiteSpace_display hc) (by decide))
  have hrest : trim (gap ++ w) = w := by
    have htrim := trim_padded gap w [] hgap rfl hunit (fun c hc => isAlpha_not_white
      (List.all_eq_true.1 hw c (hc.elim List.mem_of_head? List.mem_of_getLast?)))
    rwa [List.append_nil] at htrim
  unfold Interval.parse
  rw [String.toList_ofList, trim_number n before _ w after hbefore hafter hw hunit]
  dsimp only
  rw [tryParseShort_eq hnum (by simp) hw hunit, parseI64_space (List.mem_append_right _ List.mem_cons_self),
    List.append_assoc, List.dropWhile_append_of_pos hpos, List.takeWhile_append_of_pos hpos, List.cons_append,
    List.dropWhile_cons_of_neg (by simp), List.takeWhile_cons_of_neg (by simp), List.append_nil, parseI64_display]
  dsimp only
  rw [hrest, l.ascii w hw]
  by_cases hlen : w.length ≤ 2
  · rw [if_neg (by omega), if_pos hlen]
  · rw [if_pos (by omega), if_neg hlen]

/-- **What is read of a number and letters.**  Right behind the number only the units of one or two letters are known, and with
a space in between only the longer ones: there a unit of two letters is an error about the number. -/
theorem parse_reads (l : Lowercase) (n : Int64) (before gap w after : List Char)
    (hbefore : before.all isWhiteSpace = true) (hafter : after.all isWhiteSpace = true)
    (hgap : gap.all isWhiteSpace = true) (hw : w.all Char.isAlpha = true) (hunit : w ≠ []) :
    (Interval.parse l (String.ofList (before ++ ((display64 n).toList ++ w) ++ after)) =
      match (if w.length ≤ 2 then shortUnit (String.ofList w) else none) with
      | some unit => .ok (unit n)
      | none => .error (.invalidFormat ((display64 n).toList ++ w))) ∧
    (Interval.parse l (String.ofList (before ++ ((display64 n).toList ++ ' ' :: gap ++ w) ++ after)) =
      if w.length ≤ 2 then .error (.invalidNumber ((display64 n).toList ++ ' ' :: gap))
      else match fullUnit (String.ofList (w.map Char.toLower)) with
        | some unit => .ok (unit n)
        | none => .error (.unknownUnit (w.map Char.toLower))) :=
  ⟨parse_tight l n before w after hbefore hafter hw hunit, parse_spaced l n before gap w after hbefore hafter hgap hw hunit⟩

/-- The lower case of ASCII. -/
def asciiLower : Lowercase := ⟨List.map Char.toLower, fun _ _ => rfl⟩

theorem parse_reads_us : Interval.parse asciiLower "5us" = .ok (.microseconds 5) ∧
    Interval.parse asciiLower "5 us" = .error (.invalidNumber ['5', ' ']) :=
  parse_reads asciiLower 5 [] [] ['u', 's'] [] rfl rfl rfl rfl (List.cons_ne_nil _ _)

/-- **An interval is read back from its own text.** -/
theorem parse_display (l : Lowercase) (i : Interval) : Interval.parse l i.display = .ok i := by
  have read : ∀ (n : Int64) (w : List Char) (text : String), w.all Char.isAlpha = true → 2 < w.length →
      text = display64 n ++ String.ofList (' ' :: w) → Interval.parse l text =
        match fullUnit (String.ofList (w.map Char.toLower)) with
        | some unit => .ok (unit n)
        | none => .error (.unknownUnit (w.map Char.toLower)) := by
    intro n w text hw hlen htext
    have hspaced := parse_spaced l n [] [] w [] rfl rfl rfl hw (by rintro rfl; cases hlen)
    have hsame : text = String.ofList ([] ++ ((display64 n).toList ++ ' ' :: [] ++ w) ++ []) := by
      refine String.toList_inj.1 ?_
      rw [htext, String.toList_append, String.toList_ofList, String.toList_ofList, List.nil_append, List.append_nil,
        List.append_assoc]
      rfl
    rw [hsame, hspaced, if_neg (by omega)]
  cases i with
  | microseconds n => exact read n "microseconds".toList _ (by decide) (by decide) rfl
  | milliseconds n => exact read n "milliseconds".toList _ (by decide) (by decide) rfl
  | seconds n => exact read n "seconds".toList _ (by decide) (by decide) rfl
  | minutes n => exact read n "minutes".toList _ (by decide) (by decide) rfl
  | hours n => exact read n "hours".toList _ (by decide) (by decide) rfl
  | days n => exact read n "days".toList _ (by decide) (by decide) rfl
  | weeks n => exact read n "weeks".toList _ (by decide) (by decide) rfl
  | months n => exact read n "months".toList _ (by decide) (by decide) rfl

end Timescale
end ZeroDowntime
