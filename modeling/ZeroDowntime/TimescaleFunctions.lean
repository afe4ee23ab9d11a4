import ZeroDowntime.Timescale
/-!
# TimescaleFunctions — the expressions that `sea-orm-timescale` writes

The query functions put the names of columns between double quotes as they are, escape an origin and a time zone, and write
the bounds of a histogram as Rust displays them.
-/
namespace ZeroDowntime
namespace Timescale

open SqlText (Token Piece Spaced NoNul lex renderAll meantAll scan signed isNumeral isNumeralTail)

/-- An `f64`, by what it is displayed as: not a number, infinite, or the shortest decimal that is read back as it. -/
inductive F64
  | nan
  | infinite (negative : Bool)
  | decimal (negative : Bool) (whole : Nat) (fraction : List (Fin 10))
  deriving DecidableEq, Repr

def sign (negative : Bool) : String := if negative then "-" else ""

def F64.fractionDigits (fraction : List (Fin 10)) : String :=
  if fraction.isEmpty then "" else "." ++ String.ofList (fraction.map (fun d => Nat.digitChar d.val))

def F64.display : F64 → String
  | .nan => "NaN"
  | .infinite negative => sign negative ++ "inf"
  | .decimal negative whole fraction => sign negative ++ (Nat.repr whole ++ fractionDigits fraction)

def F64.isFinite : F64 → Bool
  | .decimal _ _ _ => true
  | .nan | .infinite _ => false

/-- `write!(f, "{n}")` -/
def display32 (n : Int32) : String := sign (decide (n.toInt < 0)) ++ Nat.repr n.toInt.natAbs

/-- An expression of the query builder: SQL as it is, or anything else, by what `SELECT` and it are rendered as. -/
inductive SimpleExpr
  | custom (sql : String)
  | other (rendered : String)

/-- `rendered.strip_prefix("SELECT ").unwrap_or(&rendered)` -/
def stripSelect (rendered : String) : String :=
  if "SELECT ".toList.isPrefixOf rendered.toList then String.ofList (rendered.toList.drop 7) else rendered

def SimpleExpr.sql : SimpleExpr → String
  | .custom sql => sql
  | .other rendered => stripSelect rendered

def timeBucket (interval : Interval) (column : String) : SimpleExpr :=
  .custom ("time_bucket('" ++ interval.display ++ "', \"" ++ column ++ "\")")

def timeBucketGapfill (interval : Interval) (column : String) : SimpleExpr :=
  .custom ("time_bucket_gapfill('" ++ interval.display ++ "', \"" ++ column ++ "\")")

def first (valueName timeName : String) : SimpleExpr := .custom ("first(\"" ++ valueName ++ "\", \"" ++ timeName ++ "\")")

def last (valueName timeName : String) : SimpleExpr := .custom ("last(\"" ++ valueName ++ "\", \"" ++ timeName ++ "\")")

def timeBucketWithOrigin (interval : Interval) (column origin : String) : SimpleExpr :=
  .custom ("time_bucket('" ++ interval.display ++ "', \"" ++ column ++ "\", origin => '" ++ escapeStringLiteral origin ++
    "')")

def timeBucketWithOffset (interval : Interval) (column : String) (offset : Interval) : SimpleExpr :=
  .custom ("time_bucket('" ++ interval.display ++ "', \"" ++ column ++ "\", INTERVAL '" ++ offset.display ++ "')")

def timeBucketTz (interval : Interval) (column timezone : String) : SimpleExpr :=
  .custom ("time_bucket('" ++ interval.display ++ "', \"" ++ column ++ "\", timezone => '" ++ escapeStringLiteral timezone ++
    "')")

def histogram (column : String) (min max : F64) (buckets : Int32) : SimpleExpr :=
  .custom ("histogram(\"" ++ column ++ "\", " ++ min.display ++ ", " ++ max.display ++ ", " ++ display32 buckets ++ ")")

/-- `test_histogram_sql` -/
example : (histogram "temperature" (.decimal false 0 []) (.decimal false 100 []) 10).sql =
    "histogram(\"temperature\", 0, 100, 10)" := by decide

def locf (inner : SimpleExpr) : SimpleExpr := .custom ("locf(" ++ inner.sql ++ ")")

def interpolate (inner : SimpleExpr) : SimpleExpr := .custom ("interpolate(" ++ inner.sql ++ ")")

/-- How a caller puts the functions together. -/
inductive Expr
  | timeBucket (interval : Interval) (column : String)
  | timeBucketGapfill (interval : Interval) (column : String)
  | first (valueName timeName : String)
  | last (valueName timeName : String)
  | histogram (column : String) (min max : F64) (buckets : Int32)
  | timeBucketWithOrigin (interval : Interval) (column origin : String)
  | timeBucketWithOffset (interval : Interval) (column : String) (offset : Interval)
  | timeBucketTz (interval : Interval) (column timezone : String)
  | locf (inner : Expr)
  | interpolate (inner : Expr)
  | other (e : SimpleExpr)

def Expr.build : Expr → SimpleExpr
  | .timeBucket interval column => Timescale.timeBucket interval column
  | .timeBucketGapfill interval column => Timescale.timeBucketGapfill interval column
  | .first valueName timeName => Timescale.first valueName timeName
  | .last valueName timeName => Timescale.last valueName timeName
  | .histogram column min max buckets => Timescale.histogram column min max buckets
  | .timeBucketWithOrigin interval column origin => Timescale.timeBucketWithOrigin interval column origin
  | .timeBucketWithOffset interval column offset => Timescale.timeBucketWithOffset interval column offset
  | .timeBucketTz interval column timezone => Timescale.timeBucketTz interval column timezone
  | .locf inner => Timescale.locf inner.build
  | .interpolate inner => Timescale.interpolate inner.build
  | .other e => e

/-- The pieces of a call with no expression in it. -/
def Expr.pieces : Expr → List Piece
  | .timeBucket interval column => [text "time_bucket(", str interval.display, text ", ", name column, text ")"]
  | .timeBucketGapfill interval column =>
    [text "time_bucket_gapfill(", str interval.display, text ", ", name column, text ")"]
  | .first valueName timeName => [text "first(", name valueName, text ", ", name timeName, text ")"]
  | .last valueName timeName => [text "last(", name valueName, text ", ", name timeName, text ")"]
  | .histogram column min max buckets =>
    [text "histogram(", name column,
      text (", " ++ min.display ++ ", " ++ max.display ++ ", " ++ display32 buckets ++ ")")]
  | .timeBucketWithOrigin interval column origin =>
    [text "time_bucket(", str interval.display, text ", ", name column, text ", origin => ", .escaped origin.toList, text ")"]
  | .timeBucketWithOffset interval column offset =>
    [text "time_bucket(", str interval.display, text ", ", name column, text ", INTERVAL ", str offset.display, text ")"]
  | .timeBucketTz interval column timezone =>
    [text "time_bucket(", str interval.display, text ", ", name column, text ", timezone => ", .escaped timezone.toList,
      text ")"]
  | .locf _ | .interpolate _ | .other _ => []

/-- The last arguments of a histogram as tokens: three numbers, each behind a comma. -/
def numbers (min max buckets : String) : Option (List Token) := do
  let low ← signed min.toList
  let high ← signed max.toList
  let count ← signed buckets.toList
  return [.symbol ','] ++ low ++ [.symbol ','] ++ high ++ [.symbol ','] ++ count ++ [.symbol ')']

/-- What an expression is meant to be read as. -/
def Expr.meant : Expr → Option (List Token)
  | .histogram column min max buckets =>
    (numbers min.display max.display (display32 buckets)).map
      ([.word "histogram".toList, .symbol '(', .name column.toList] ++ ·)
  | .locf inner => inner.meant.map (fun ts => [.word "locf".toList, .symbol '('] ++ ts ++ [.symbol ')'])
  | .interpolate inner => inner.meant.map (fun ts => [.word "interpolate".toList, .symbol '('] ++ ts ++ [.symbol ')'])
  | .other e => lex e.sql.toList
  | e => some (meantAll e.pieces)

def Expr.columns : Expr → List String
  | .timeBucket _ column | .timeBucketGapfill _ column | .timeBucketWithOrigin _ column _ | .timeBucketWithOffset _ column _
  | .timeBucketTz _ column _ | .histogram column _ _ _ => [column]
  | .first valueName timeName | .last valueName timeName => [valueName, timeName]
  | .locf inner | .interpolate inner => inner.columns
  | .other _ => []

def Expr.escapedTexts : Expr → List String
  | .timeBucketWithOrigin _ _ origin => [origin]
  | .timeBucketTz _ _ timezone => [timezone]
  | .locf inner | .interpolate inner => inner.escapedTexts
  | _ => []

def Expr.bounds : Expr → List F64
  | .histogram _ min max _ => [min, max]
  | .locf inner | .interpolate inner => inner.bounds
  | _ => []

/-- The SQL that the caller brings. -/
def Expr.given : Expr → List String
  | .locf inner | .interpolate inner => inner.given
  | .other e => [e.sql]
  | _ => []

/-- **The expression is read as it is meant to be**, no comment goes on behind it, and its columns are these columns. -/
def Expr.Read (reserved : List Char → Bool) (e : Expr) : Prop :=
  ∃ tokens, e.meant = some tokens ∧ lex e.build.sql.toList = some tokens ∧
    (scan ⟨[], .start⟩ e.build.sql.toList).mode.commenting = false ∧
    ∀ c ∈ e.columns, (Token.name c.toList).ident? reserved = some c.toList

/-- What PostgreSQL takes for the name of a column between double quotes as it is. -/
def IsColumn (column : String) : Prop :=
  (column ≠ "" ∧ '"' ∉ column.toList ∧ NoNul column.toList) ∧ SqlText.bytes column.toList ≤ SqlText.maxIdentBytes

/-- SQL that can be read, and that does not end in a comment. -/
def Whole (sql : String) : Prop :=
  (lex sql.toList).isSome = true ∧ (scan ⟨[], .start⟩ sql.toList).mode.commenting = false

/-! ## Numbers -/

theorem digits_repr (n : Nat) : Nat.repr n ≠ "" ∧ ∀ c ∈ (Nat.repr n).toList, c.isDigit = true := by
  refine ⟨fun h => ?_, fun c hc => ?_⟩
  · have hlen := congrArg String.toList h
    rw [Nat.toList_repr] at hlen
    exact Nat.toDigits_ne_nil hlen
  · rw [Nat.toList_repr] at hc
    exact Nat.isDigit_of_mem_toDigits (by decide) (by decide) hc

theorem isNumeralTail_append {tail : List Char} (htail : isNumeralTail tail = true) :
    ∀ {ds : List Char}, (∀ d ∈ ds, d.isDigit = true) → isNumeralTail (ds ++ tail) = true
  | [], _ => htail
  | d :: ds, h => by
    obtain ⟨hd, hds⟩ := List.forall_mem_cons.1 h
    have hdot : d ≠ '.' := by
      rintro rfl
      exact absurd hd (by decide)
    rw [List.cons_append, isNumeralTail, if_neg hdot, hd, isNumeralTail_append htail hds]
    rfl

theorem isNumeral_append {ds tail : List Char} (hne : ds ≠ []) (hds : ∀ d ∈ ds, d.isDigit = true)
    (htail : isNumeralTail tail = true) : isNumeral (ds ++ tail) = true := by
  cases ds with
  | nil => exact absurd rfl hne
  | cons d ds =>
    obtain ⟨hd, hds⟩ := List.forall_mem_cons.1 hds
    rw [List.cons_append, isNumeral, hd, isNumeralTail_append htail hds]
    rfl

theorem isNumeralTail_fraction (fraction : List (Fin 10)) :
    isNumeralTail (F64.fractionDigits fraction).toList = true := by
  cases fraction with
  | nil => rfl
  | cons d ds =>
    have hdigits : ((d :: ds).map (fun d => Nat.digitChar d.val)).all Char.isDigit = true := by
      rw [List.all_map, List.all_eq_true]
      exact fun e _ => (by decide : ∀ e : Fin 10, (Nat.digitChar e.val).isDigit = true) e
    have hlist : (F64.fractionDigits (d :: ds)).toList = '.' :: (d :: ds).map (fun d => Nat.digitChar d.val) := by
      show ("." ++ String.ofList _).toList = _
      rw [String.toList_append, String.toList_ofList, String.toList_ofList]
      rfl
    rw [hlist, isNumeralTail, if_pos rfl, hdigits]
    rfl

/-- A numeral behind its sign is a number. -/
theorem signed_sign (negative : Bool) {digits : String} (h : isNumeral digits.toList = true) :
    (signed (sign negative ++ digits).toList).isSome = true := by
  rw [String.toList_append]
  cases negative with
  | true =>
    show (signed ('-' :: digits.toList)).isSome = true
    rw [signed, if_pos rfl, if_pos h]
    rfl
  | false =>
    show (signed digits.toList).isSome = true
    cases hl : digits.toList with
    | nil =>
      rw [hl] at h
      cases h
    | cons c l =>
      rw [hl] at h
      have hc : c ≠ '-' := by
        rintro rfl
        rw [isNumeral] at h
        exact absurd (Bool.and_eq_true_iff.1 h).1 (by decide)
      rw [signed, if_neg hc, if_pos h]
      rfl

theorem isNumeral_repr (n : Nat) {tail : String} (htail : isNumeralTail tail.toList = true) :
    isNumeral (Nat.repr n ++ tail).toList = true := by
  obtain ⟨hne, hdigits⟩ := digits_repr n
  rw [String.toList_append]
  exact isNumeral_append (fun h => hne (String.toList_eq_nil_iff.1 h)) hdigits htail

/-- **A bound is written as a number exactly if it is finite.** -/
theorem signed_display (x : F64) : (signed x.display.toList).isSome = x.isFinite := by
  cases x with
  | nan => rfl
  | infinite negative => cases negative <;> rfl
  | decimal negative whole fraction => exact signed_sign negative (isNumeral_repr whole (isNumeralTail_fraction fraction))

theorem signed_display32 (n : Int32) : (signed (display32 n).toList).isSome = true := by
  have htail : isNumeralTail "".toList = true := rfl
  have h := isNumeral_repr n.toInt.natAbs htail
  rw [String.append_empty] at h
  exact signed_sign _ h

/-- The numbers are meant to be read if both bounds are finite. -/
theorem numbers_isSome (min max : F64) (buckets : Int32) :
    (numbers min.display max.display (display32 buckets)).isSome = (min.isFinite && max.isFinite) := by
  have hcount := signed_display32 buckets
  rw [← signed_display min, ← signed_display max, numbers]
  cases signed min.display.toList with
  | none => rfl
  | some low =>
    cases signed max.display.toList with
    | none => rfl
    | some high =>
      cases hb : signed (display32 buckets).toList with
      | none =>
        rw [hb] at hcount
        cases hcount
      | some count => rfl

/-- **Three numbers are read as these numbers.** -/
theorem scan_numbers {min max buckets : String} {tokens : List Token} (h : numbers min max buckets = some tokens) :
    scan ⟨[], .start⟩ (", " ++ min ++ ", " ++ max ++ ", " ++ buckets ++ ")").toList = ⟨tokens, .start⟩ := by
  obtain ⟨low, hlow, h⟩ := Option.bind_eq_some_iff.1 h
  obtain ⟨high, hhigh, h⟩ := Option.bind_eq_some_iff.1 h
  obtain ⟨count, hcount, h⟩ := Option.bind_eq_some_iff.1 h
  obtain rfl := Option.some.inj h
  have hclose : ∀ ts : List Token, scan ⟨ts, .start⟩ ")".toList = ⟨ts ++ [.symbol ')'], .start⟩ := fun ts => rfl
  have hcomma : ∀ (ts : List Token) (cs : List Char),
      scan ⟨ts, .start⟩ (", ".toList ++ cs) = scan ⟨ts ++ [.symbol ','], .start⟩ cs := fun ts cs => rfl
  simp only [String.toList_append, List.append_assoc]
  rw [hcomma, SqlText.scan_signed _ hlow rfl, hcomma, SqlText.scan_signed _ hhigh rfl, hcomma,
    SqlText.scan_signed _ hcount rfl, hclose]
  simp only [List.append_assoc, List.nil_append]

/-! ## What the expressions are read as -/

theorem good_name_iff (column : String) :
    (name column).Good ↔ column ≠ "" ∧ '"' ∉ column.toList ∧ NoNul column.toList := by
  constructor
  · rintro ⟨hq, hn, hne⟩
    exact ⟨fun h => hne (String.toList_eq_nil_iff.2 h), hq, hn⟩
  · rintro ⟨hne, hq, hn⟩
    exact ⟨hq, hn, fun h => hne (String.toList_eq_nil_iff.1 h)⟩

theorem leaf_iff {e : Expr} (reserved : List Char → Bool) (hm : e.meant = some (meantAll e.pieces))
    (htext : e.build.sql.toList = renderAll e.pieces) (hs : Spaced [] e.pieces) :
    e.Read reserved ↔
      (∀ p ∈ e.pieces, p.Good) ∧ ∀ c ∈ e.columns, SqlText.bytes c.toList ≤ SqlText.maxIdentBytes := by
  have hident : (∀ c ∈ e.columns, (Token.name c.toList).ident? reserved = some c.toList) ↔
      ∀ c ∈ e.columns, SqlText.bytes c.toList ≤ SqlText.maxIdentBytes :=
    forall₂_congr (fun c _ => SqlText.ident?_name_iff reserved c.toList)
  rw [← hident]
  constructor
  · rintro ⟨tokens, hmeant, hlex, -, hcols⟩
    obtain rfl := Option.some.inj (hm.symm.trans hmeant)
    rw [htext] at hlex
    exact ⟨(SqlText.lex_render_iff hs).1 hlex, hcols⟩
  · rintro ⟨hgood, hcols⟩
    have hscan := SqlText.scan_render e.pieces [] hs hgood
    rw [List.append_nil, ← htext] at hscan
    refine ⟨meantAll e.pieces, hm, ?_, ?_, hcols⟩
    · rw [lex, hscan]
      rfl
    · rw [hscan]
      rfl

theorem wrap_iff (t : String) {e inner : Expr} (reserved : List Char → Bool)
    (ht : (scan ⟨[], .start⟩ t.toList).mode = .start) (htext : e.build.sql = t ++ inner.build.sql ++ ")")
    (hm : e.meant = inner.meant.map (fun ts => (scan ⟨[], .start⟩ t.toList).tokens ++ ts ++ [.symbol ')']))
    (hcols : e.columns = inner.columns) : e.Read reserved ↔ inner.Read reserved := by
  have hlist : e.build.sql.toList = t.toList ++ inner.build.sql.toList ++ [')'] := by
    rw [htext, String.toList_append, String.toList_append]
    rfl
  have hmode := SqlText.commenting_wrap ht inner.build.sql.toList
  rw [Expr.Read, Expr.Read, hlist, hmode, hcols, hm]
  constructor
  · rintro ⟨tokens, hmeant, hlex, hcomment, hident⟩
    obtain ⟨ts, hts, rfl⟩ := Option.map_eq_some_iff.1 hmeant
    rw [SqlText.lex_wrap ht hcomment] at hlex
    obtain ⟨ts', hts', heq⟩ := Option.map_eq_some_iff.1 hlex
    obtain rfl := List.append_cancel_left (List.append_cancel_right heq)
    exact ⟨ts', hts, hts', hcomment, hident⟩
  · rintro ⟨ts, hmeant, hlex, hcomment, hident⟩
    refine ⟨_, congrArg _ hmeant, ?_, hcomment, hident⟩
    rw [SqlText.lex_wrap ht hcomment, hlex]
    rfl

/-- The values of a call are its columns and the texts that are escaped. -/
theorem good_pieces_iff (e : Expr) : (∀ p ∈ e.pieces, p.Good) ∧ e.pieces ≠ [] ↔
    ((∀ c ∈ e.columns, (name c).Good) ∧ ∀ v ∈ e.escapedTexts, NoNul v.toList) ∧ e.pieces ≠ [] := by
  cases e <;> simp [Expr.pieces, Expr.columns, Expr.escapedTexts, text, str, Piece.Good]

/-- A call is read as it is meant to be exactly if its columns can be quoted as they are, and are not too long, and its
escaped texts have no character zero. -/
theorem call_read_iff {e : Expr} (reserved : List Char → Bool) (hcall : e.pieces ≠ [])
    (hm : e.meant = some (meantAll e.pieces)) (htext : e.build.sql.toList = renderAll e.pieces)
    (hs : Spaced [] e.pieces) : e.Read reserved ↔ (∀ c ∈ e.columns, IsColumn c) ∧ ∀ v ∈ e.escapedTexts, NoNul v.toList := by
  have hgood := good_pieces_iff e
  rw [and_congr_left_iff] at hgood
  have hcols : (∀ c ∈ e.columns, IsColumn c) ↔
      (∀ c ∈ e.columns, (name c).Good) ∧ ∀ c ∈ e.columns, SqlText.bytes c.toList ≤ SqlText.maxIdentBytes := by
    rw [← forall₂_and]
    exact forall₂_congr (fun c _ => and_congr_left' (good_name_iff c).symm)
  rw [leaf_iff reserved hm htext hs, hgood hcall, hcols, and_right_comm]

/-- The same of a call in which there are no numbers and no SQL of the caller. -/
theorem plain_read_iff {e : Expr} (reserved : List Char → Bool) (hbounds : e.bounds = []) (hgiven : e.given = [])
    (hcall : e.pieces ≠ []) (hm : e.meant = some (meantAll e.pieces)) (htext : e.build.sql.toList = renderAll e.pieces)
    (hs : Spaced [] e.pieces) : e.Read reserved ↔
      ((∀ c ∈ e.columns, IsColumn c) ∧ ∀ v ∈ e.escapedTexts, NoNul v.toList) ∧
        (∀ x ∈ e.bounds, x.isFinite = true) ∧ ∀ sql ∈ e.given, Whole sql := by
  rw [call_read_iff reserved hcall hm htext hs, hbounds, hgiven]
  refine (and_iff_left ⟨?_, ?_⟩).symm
  · exact fun x hx => absurd hx List.not_mem_nil
  · exact fun sql hs => absurd hs List.not_mem_nil

theorem histogram_read_iff (reserved : List Char → Bool) (column : String) (min max : F64) (buckets : Int32) :
    (Expr.histogram column min max buckets).Read reserved ↔
      ((∀ c ∈ [column], IsColumn c) ∧ ∀ v ∈ ([] : List String), NoNul v.toList) ∧
        (∀ x ∈ [min, max], x.isFinite = true) ∧ ∀ sql ∈ ([] : List String), Whole sql := by
  have hbounds : (∀ x ∈ [min, max], x.isFinite = true) ↔
      (numbers min.display max.display (display32 buckets)).isSome = true := by
    rw [numbers_isSome, Bool.and_eq_true, List.forall_mem_cons, List.forall_mem_singleton]
  have hgiven : ∀ sql ∈ ([] : List String), Whole sql := fun sql hs => absurd hs List.not_mem_nil
  rw [hbounds, and_iff_left hgiven]
  cases hnum : numbers min.display max.display (display32 buckets) with
  | none =>
    -- a bound that is not finite is no number, whatever the text is read as
    refine iff_of_false (fun ⟨tokens, hmeant, _⟩ => ?_) (fun h => Bool.false_ne_true h.2)
    rw [Expr.meant, hnum] at hmeant
    cases hmeant
  | some tokens =>
    have hscan := scan_numbers hnum
    have hm : (Expr.histogram column min max buckets).meant =
        some (meantAll (Expr.histogram column min max buckets).pieces) := by
      rw [Expr.meant, hnum]
      show _ = some ([Token.word "histogram".toList, .symbol '('] ++ ([.name column.toList] ++
        ((scan ⟨[], .start⟩ (", " ++ min.display ++ ", " ++ max.display ++ ", " ++ display32 buckets ++ ")").toList).tokens ++
          [])))
      rw [hscan, List.append_nil]
      rfl
    have hend : (renderAll [text (", " ++ min.display ++ ", " ++ max.display ++ ", " ++ display32 buckets ++ ")")] ++
        []).head?.any SqlText.endsName = true := by
      refine next_text [] [] ?_
      simp only [String.toList_append, List.append_assoc]
      rfl
    rw [and_iff_left (Option.isSome_some (a := tokens))]
    refine call_read_iff reserved (List.cons_ne_nil _ _) hm ?_ ⟨rfl, hend, congrArg SqlText.Scan.mode hscan, trivial⟩
    simp [Expr.build, histogram, SimpleExpr.sql, Expr.pieces]

theorem other_read_iff (reserved : List Char → Bool) (e : SimpleExpr) : (Expr.other e).Read reserved ↔
    ((∀ c ∈ ([] : List String), IsColumn c) ∧ ∀ v ∈ ([] : List String), NoNul v.toList) ∧
      (∀ x ∈ ([] : List F64), x.isFinite = true) ∧ ∀ sql ∈ [e.sql], Whole sql := by
  have hnil : ∀ {α : Type} {p : α → Prop}, ∀ x ∈ ([] : List α), p x := fun x hx => absurd hx List.not_mem_nil
  rw [and_iff_right ⟨hnil, hnil⟩, and_iff_right hnil, List.forall_mem_singleton]
  constructor
  · rintro ⟨tokens, hmeant, -, hcomment, -⟩
    have hlex : lex e.sql.toList = some tokens := hmeant
    exact ⟨Option.isSome_iff_exists.2 ⟨tokens, hlex⟩, hcomment⟩
  · rintro ⟨hsome, hcomment⟩
    obtain ⟨tokens, hlex⟩ := Option.isSome_iff_exists.1 hsome
    exact ⟨tokens, hlex, hlex, hcomment, hnil⟩

end Timescale
end ZeroDowntime
