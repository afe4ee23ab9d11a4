import ZeroDowntime.ApiSchema
import ZeroDowntime.SqlText
/-!
# Timescale — the SQL that `sea-orm-timescale` writes

The migration helpers write statements from names that are checked, from intervals, and from two texts that are escaped.
What a statement is read as is the matter of PostgreSQL's scanner (`helper_sends`).
-/
namespace ZeroDowntime
namespace Timescale

open Api (DbErr)
open SqlText (Token Piece Scan lex renderAll meantAll scan)

inductive Interval
  | microseconds (n : Int64)
  | milliseconds (n : Int64)
  | seconds (n : Int64)
  | minutes (n : Int64)
  | hours (n : Int64)
  | days (n : Int64)
  | weeks (n : Int64)
  | months (n : Int64)
  deriving DecidableEq, Repr

/-- `write!(f, "{n}")` -/
def display64 (n : Int64) : String := if n.toInt < 0 then "-" ++ Nat.repr n.toInt.natAbs else Nat.repr n.toInt.natAbs

def Interval.display : Interval → String
  | .microseconds n => display64 n ++ " microseconds"
  | .milliseconds n => display64 n ++ " milliseconds"
  | .seconds n => display64 n ++ " seconds"
  | .minutes n => display64 n ++ " minutes"
  | .hours n => display64 n ++ " hours"
  | .days n => display64 n ++ " days"
  | .weeks n => display64 n ++ " weeks"
  | .months n => display64 n ++ " months"

inductive SortDirection
  | asc
  | desc
  deriving DecidableEq, Repr

def SortDirection.display : SortDirection → String
  | .asc => "ASC"
  | .desc => "DESC"

structure HypertableConfig where
  tableName : String
  timeColumn : String
  chunkInterval : Option Interval
  ifNotExists : Bool

structure CompressionConfig where
  segmentBy : List String
  orderBy : List (String × SortDirection)
  compressAfter : Interval

structure RefreshPolicy where
  startOffset : Interval
  endOffset : Interval
  scheduleInterval : Interval

structure ContinuousAggregateConfig where
  viewName : String
  refreshPolicy : Option RefreshPolicy

structure RetentionConfig where
  dropAfter : Interval

/-! ## The migration helpers

A helper answers with the statements it executes one after the other. -/

def isIdent (name : String) : Bool := name ≠ "" && name.toList.all (fun c => c.isAlphanum || c = '_')

def validateIdent (name : String) : Except DbErr String :=
  if isIdent name then .ok name else .error (.custom ("Invalid SQL identifier: '" ++ name ++ "'"))

/-- `for col in cols { validate_ident(col)?; }` -/
def validateAll : List String → Except DbErr Unit
  | [] => .ok ()
  | name :: names => do
    let _ ← validateIdent name
    validateAll names

/-- `s.replace('\'', "''")` -/
def escapeStringLiteral (s : String) : String :=
  String.ofList (s.toList.flatMap (fun c => if c = '\'' then ['\'', '\''] else [c]))

def createHypertable (config : HypertableConfig) : Except DbErr (List String) := do
  let table ← validateIdent config.tableName
  let timeCol ← validateIdent config.timeColumn
  let sql := "SELECT create_hypertable(" ++ ("'" ++ table ++ "', '" ++ timeCol ++ "'")
  let sql := match config.chunkInterval with
    | some interval => sql ++ (", chunk_time_interval => INTERVAL '" ++ interval.display ++ "'")
    | none => sql
  let sql := if config.ifNotExists then sql ++ ", if_not_exists => TRUE" else sql
  return [sql ++ ")"]

def enableCompression (table : String) (config : CompressionConfig) : Except DbErr (List String) := do
  let table ← validateIdent table
  validateAll config.segmentBy
  validateAll (config.orderBy.map Prod.fst)
  let alterSql := "ALTER TABLE \"" ++ table ++ "\" SET (timescaledb.compress"
  let alterSql :=
    if config.segmentBy.isEmpty then alterSql
    else alterSql ++ (", timescaledb.compress_segmentby = '" ++ ", ".intercalate config.segmentBy ++ "'")
  let orderParts := config.orderBy.map (fun p => p.1 ++ " " ++ p.2.display)
  let alterSql :=
    if config.orderBy.isEmpty then alterSql
    else alterSql ++ (", timescaledb.compress_orderby = '" ++ ", ".intercalate orderParts ++ "'")
  let policySql := "SELECT add_compression_policy('" ++ table ++ "', INTERVAL '" ++ config.compressAfter.display ++ "')"
  return [alterSql ++ ")", policySql]

def addRetentionPolicy (table : String) (config : RetentionConfig) : Except DbErr (List String) := do
  let table ← validateIdent table
  return ["SELECT add_retention_policy('" ++ table ++ "', INTERVAL '" ++ config.dropAfter.display ++ "')"]

def createContinuousAggregate (selectSql : String) (config : ContinuousAggregateConfig) : Except DbErr (List String) := do
  let view ← validateIdent config.viewName
  let createSql := "CREATE MATERIALIZED VIEW \"" ++ view ++ "\" WITH (timescaledb.continuous) AS " ++ selectSql
  match config.refreshPolicy with
  | none => return [createSql]
  | some policy =>
    let policySql := "SELECT add_continuous_aggregate_policy('" ++ view ++ "', start_offset => INTERVAL '" ++
      policy.startOffset.display ++ "', end_offset => INTERVAL '" ++ policy.endOffset.display ++
      "', schedule_interval => INTERVAL '" ++ policy.scheduleInterval.display ++ "')"
    return [createSql, policySql]

def refreshContinuousAggregate (view start stop : String) : Except DbErr (List String) := do
  let view ← validateIdent view
  let start := escapeStringLiteral start
  let stop := escapeStringLiteral stop
  return ["CALL refresh_continuous_aggregate('" ++ view ++ "', '" ++ start ++ "', '" ++ stop ++ "')"]

/-- The helpers that only remove something by its name. -/
def removeByName (function : String) (name : String) : Except DbErr (List String) := do
  let name ← validateIdent name
  return ["SELECT " ++ function ++ "('" ++ name ++ "')"]

def removeRetentionPolicy (table : String) : Except DbErr (List String) := removeByName "remove_retention_policy" table

def removeCompressionPolicy (table : String) : Except DbErr (List String) := removeByName "remove_compression_policy" table

def removeContinuousAggregatePolicy (view : String) : Except DbErr (List String) :=
  removeByName "remove_continuous_aggregate_policy" view

def dropChunks (table : String) (olderThan : Interval) : Except DbErr (List String) := do
  let table ← validateIdent table
  return ["SELECT drop_chunks('" ++ table ++ "', older_than => INTERVAL '" ++ olderThan.display ++ "')"]

inductive Helper
  | createHypertable (config : HypertableConfig)
  | enableCompression (table : String) (config : CompressionConfig)
  | addRetentionPolicy (table : String) (config : RetentionConfig)
  | createContinuousAggregate (selectSql : String) (config : ContinuousAggregateConfig)
  | refreshContinuousAggregate (view start stop : String)
  | removeRetentionPolicy (table : String)
  | removeCompressionPolicy (table : String)
  | removeContinuousAggregatePolicy (view : String)
  | dropChunks (table : String) (olderThan : Interval)

def Helper.plan : Helper → Except DbErr (List String)
  | .createHypertable config => Timescale.createHypertable config
  | .enableCompression table config => Timescale.enableCompression table config
  | .addRetentionPolicy table config => Timescale.addRetentionPolicy table config
  | .createContinuousAggregate selectSql config => Timescale.createContinuousAggregate selectSql config
  | .refreshContinuousAggregate view start stop => Timescale.refreshContinuousAggregate view start stop
  | .removeRetentionPolicy table => Timescale.removeRetentionPolicy table
  | .removeCompressionPolicy table => Timescale.removeCompressionPolicy table
  | .removeContinuousAggregatePolicy view => Timescale.removeContinuousAggregatePolicy view
  | .dropChunks table olderThan => Timescale.dropChunks table olderThan

/-- `db.execute_unprepared(&sql).await?`, statement by statement: those that were sent, and how the helper ends. -/
def perform (execute : String → Except DbErr Unit) : List String → List String × Except DbErr Unit
  | [] => ([], .ok ())
  | sql :: rest =>
    match execute sql with
    | .error e => ([sql], .error e)
    | .ok _ => ((perform execute rest).map (sql :: ·) id)

def Helper.call (execute : String → Except DbErr Unit) (h : Helper) : List String × Except DbErr Unit :=
  match h.plan with
  | .error e => ([], .error e)
  | .ok statements => perform execute statements

/-! ## What the statements are meant to be read as -/

/-- A statement as its pieces, with what a caller passes as SQL of its own behind them. -/
structure Statement where
  pieces : List Piece
  raw : String

def Statement.text (s : Statement) : String := String.ofList (renderAll s.pieces ++ s.raw.toList)

def text (t : String) : Piece := .text t.toList

def str (value : String) : Piece := .string value.toList

def name (value : String) : Piece := .name value.toList

def CompressionConfig.segmentColumns (config : CompressionConfig) : String := ", ".intercalate config.segmentBy

def CompressionConfig.orderColumns (config : CompressionConfig) : String :=
  ", ".intercalate (config.orderBy.map (fun p => p.1 ++ " " ++ p.2.display))

def CompressionConfig.settings (config : CompressionConfig) : List Piece :=
  match config.segmentBy.isEmpty, config.orderBy.isEmpty with
  | true, true => [text " SET (timescaledb.compress)"]
  | false, true =>
    [text " SET (timescaledb.compress, timescaledb.compress_segmentby = ", str config.segmentColumns, text ")"]
  | true, false => [text " SET (timescaledb.compress, timescaledb.compress_orderby = ", str config.orderColumns, text ")"]
  | false, false =>
    [text " SET (timescaledb.compress, timescaledb.compress_segmentby = ", str config.segmentColumns,
      text ", timescaledb.compress_orderby = ", str config.orderColumns, text ")"]

def removal (function table : String) : List Statement := [⟨[text ("SELECT " ++ function ++ "("), str table, text ")"], ""⟩]

def Helper.statements : Helper → List Statement
  | .createHypertable config =>
    let chunk := match config.chunkInterval with
      | some interval => [text ", chunk_time_interval => INTERVAL ", str interval.display]
      | none => []
    [⟨[text "SELECT create_hypertable(", str config.tableName, text ", ", str config.timeColumn] ++ (chunk ++
      [text (if config.ifNotExists then ", if_not_exists => TRUE)" else ")")]), ""⟩]
  | .enableCompression table config =>
    [⟨[text "ALTER TABLE ", name table] ++ config.settings, ""⟩,
      ⟨[text "SELECT add_compression_policy(", str table, text ", INTERVAL ", str config.compressAfter.display, text ")"],
        ""⟩]
  | .addRetentionPolicy table config =>
    [⟨[text "SELECT add_retention_policy(", str table, text ", INTERVAL ", str config.dropAfter.display, text ")"], ""⟩]
  | .createContinuousAggregate selectSql config =>
    ⟨[text "CREATE MATERIALIZED VIEW ", name config.viewName, text " WITH (timescaledb.continuous) AS "], selectSql⟩ ::
      match config.refreshPolicy with
      | none => []
      | some policy =>
        [⟨[text "SELECT add_continuous_aggregate_policy(", str config.viewName, text ", start_offset => INTERVAL ",
          str policy.startOffset.display, text ", end_offset => INTERVAL ", str policy.endOffset.display,
          text ", schedule_interval => INTERVAL ", str policy.scheduleInterval.display, text ")"], ""⟩]
  | .refreshContinuousAggregate view start stop =>
    [⟨[text "CALL refresh_continuous_aggregate(", str view, text ", ", .escaped start.toList, text ", ",
      .escaped stop.toList, text ")"], ""⟩]
  | .removeRetentionPolicy table => removal "remove_retention_policy" table
  | .removeCompressionPolicy table => removal "remove_compression_policy" table
  | .removeContinuousAggregatePolicy view => removal "remove_continuous_aggregate_policy" view
  | .dropChunks table olderThan =>
    [⟨[text "SELECT drop_chunks(", str table, text ", older_than => INTERVAL ", str olderThan.display, text ")"], ""⟩]

/-- The names a helper checks, in its order. -/
def Helper.identifiers : Helper → List String
  | .createHypertable config => [config.tableName, config.timeColumn]
  | .enableCompression table config => table :: (config.segmentBy ++ config.orderBy.map Prod.fst)
  | .addRetentionPolicy table _ | .removeRetentionPolicy table | .removeCompressionPolicy table
  | .dropChunks table _ => [table]
  | .createContinuousAggregate _ config => [config.viewName]
  | .refreshContinuousAggregate view _ _ | .removeContinuousAggregatePolicy view => [view]

/-- The texts that are escaped. -/
def Helper.escapedTexts : Helper → List String
  | .refreshContinuousAggregate _ start stop => [start, stop]
  | _ => []

/-- The names that are put between double quotes. -/
def Helper.quotedNames : Helper → List String
  | .enableCompression table _ => [table]
  | .createContinuousAggregate _ config => [config.viewName]
  | _ => []

/-- **The statement is read as its pieces**: the scanner is between two tokens behind them, and each of its names is the
identifier that is between the quotes. -/
def Statement.Read (reserved : List Char → Bool) (st : Statement) : Prop :=
  scan ⟨[], .start⟩ st.text.toList = scan ⟨meantAll st.pieces, .start⟩ st.raw.toList ∧
    ∀ v, Piece.name v ∈ st.pieces → (Token.name v).ident? reserved = some v

/-! ## What the helpers send -/

theorem validateAll_append (as bs : List String) :
    validateAll (as ++ bs) = (validateAll as).bind (fun _ => validateAll bs) := by
  induction as with
  | nil => rfl
  | cons a as ih =>
    simp only [List.cons_append, validateAll, ih]
    cases validateIdent a <;> rfl

theorem validateAll_eq (names : List String) : validateAll names =
    match names.find? (fun n => !isIdent n) with
    | none => .ok ()
    | some n => .error (.custom ("Invalid SQL identifier: '" ++ n ++ "'")) := by
  induction names with
  | nil => rfl
  | cons n names ih =>
    rw [validateAll, validateIdent, ih, List.find?_cons]
    cases isIdent n <;> rfl

theorem toList_escape (s : String) : (escapeStringLiteral s).toList = SqlText.escape '\'' s.toList := by
  rw [escapeStringLiteral, String.toList_ofList]
  induction s.toList with
  | nil => rfl
  | cons c cs ih =>
    rw [List.flatMap_cons, ih, SqlText.escape]
    split
    · rename_i hc
      rw [hc]
      rfl
    · rfl

/-- The texts are the pieces. -/
theorem text_eq {s : String} {st : Statement} (h : s.toList = renderAll st.pieces ++ st.raw.toList) : s = st.text := by
  rw [Statement.text, ← h, String.ofList_toList]

@[simp] theorem render_text (t : String) : (text t).render = t.toList := rfl

@[simp] theorem render_str (v : String) : (str v).render = '\'' :: (v.toList ++ ['\'']) := rfl

@[simp] theorem render_name (v : String) : (name v).render = '"' :: (v.toList ++ ['"']) := rfl

@[simp] theorem render_escaped (v : String) :
    (Piece.escaped v.toList).render = '\'' :: ((escapeStringLiteral v).toList ++ ['\'']) := by
  rw [toList_escape]
  rfl

/-- A helper that checks one name and writes statements. -/
theorem check_one (table : String) (statements : List String) {plan : Except DbErr (List String)}
    (h : plan = do let _ ← validateIdent table; return statements) :
    plan = (validateAll [table]).map (fun _ => statements) := by
  rw [h, validateAll, validateIdent]
  cases isIdent table <;> rfl

theorem validateIdent_bind {α : Type} (n : String) (k : String → Except DbErr α) :
    (validateIdent n).bind k = (validateIdent n).bind (fun _ => k n) := by
  rw [validateIdent]
  cases isIdent n <;> rfl

theorem createHypertable_eq (config : HypertableConfig) : createHypertable config =
    (validateAll (Helper.createHypertable config).identifiers).map
      (fun _ => (Helper.createHypertable config).statements.map Statement.text) := by
  simp only [createHypertable, Helper.identifiers, validateAll, validateIdent]
  cases isIdent config.tableName with
  | false => rfl
  | true =>
    cases isIdent config.timeColumn with
    | false => rfl
    | true =>
      refine congrArg Except.ok (congrArg (fun t => [t]) (text_eq ?_))
      cases config.chunkInterval <;> cases config.ifNotExists <;> simp

theorem enableCompression_eq (table : String) (config : CompressionConfig) : enableCompression table config =
    (validateAll (Helper.enableCompression table config).identifiers).map
      (fun _ => (Helper.enableCompression table config).statements.map Statement.text) := by
  have halter : ∀ sql, sql = (if config.orderBy.isEmpty then
      if config.segmentBy.isEmpty then "ALTER TABLE \"" ++ table ++ "\" SET (timescaledb.compress"
      else "ALTER TABLE \"" ++ table ++ "\" SET (timescaledb.compress" ++
        (", timescaledb.compress_segmentby = '" ++ config.segmentColumns ++ "'")
    else (if config.segmentBy.isEmpty then "ALTER TABLE \"" ++ table ++ "\" SET (timescaledb.compress"
      else "ALTER TABLE \"" ++ table ++ "\" SET (timescaledb.compress" ++
        (", timescaledb.compress_segmentby = '" ++ config.segmentColumns ++ "'")) ++
      (", timescaledb.compress_orderby = '" ++ config.orderColumns ++ "'")) →
      sql ++ ")" = Statement.text ⟨[text "ALTER TABLE ", name table] ++ config.settings, ""⟩ := by
    rintro sql rfl
    refine text_eq ?_
    unfold CompressionConfig.settings
    cases config.segmentBy.isEmpty <;> cases config.orderBy.isEmpty <;> simp
  rw [Helper.identifiers, validateAll, validateAll_append, enableCompression, validateIdent]
  cases isIdent table with
  | false => rfl
  | true =>
    cases hseg : validateAll config.segmentBy with
    | error e => rfl
    | ok u =>
      cases hord : validateAll (config.orderBy.map Prod.fst) with
      | error e => rfl
      | ok u' =>
        refine congrArg Except.ok ?_
        refine congrArg₂ List.cons (halter _ rfl) (congrArg (fun t => [t]) (text_eq ?_))
        simp

theorem addRetentionPolicy_eq (table : String) (config : RetentionConfig) : addRetentionPolicy table config =
    (validateAll (Helper.addRetentionPolicy table config).identifiers).map
      (fun _ => (Helper.addRetentionPolicy table config).statements.map Statement.text) := by
  refine check_one table _ ?_
  refine (validateIdent_bind table _).trans (congrArg _ (funext fun _ => ?_))
  refine congrArg Except.ok (congrArg (fun t => [t]) (text_eq ?_))
  simp

theorem createContinuousAggregate_eq (selectSql : String) (config : ContinuousAggregateConfig) :
    createContinuousAggregate selectSql config =
      (validateAll (Helper.createContinuousAggregate selectSql config).identifiers).map
        (fun _ => (Helper.createContinuousAggregate selectSql config).statements.map Statement.text) := by
  refine check_one config.viewName _ ?_
  refine (validateIdent_bind config.viewName _).trans (congrArg _ (funext fun _ => ?_))
  rw [Helper.statements]
  cases config.refreshPolicy with
  | none =>
    refine congrArg Except.ok (congrArg (fun t => [t]) (text_eq ?_))
    simp
  | some policy =>
    refine congrArg Except.ok (congrArg₂ List.cons (text_eq ?_) (congrArg (fun t => [t]) (text_eq ?_)))
    · simp
    · simp

theorem refreshContinuousAggregate_eq (view start stop : String) : refreshContinuousAggregate view start stop =
    (validateAll (Helper.refreshContinuousAggregate view start stop).identifiers).map
      (fun _ => (Helper.refreshContinuousAggregate view start stop).statements.map Statement.text) := by
  refine check_one view _ ?_
  refine (validateIdent_bind view _).trans (congrArg _ (funext fun _ => ?_))
  refine congrArg Except.ok (congrArg (fun t => [t]) (text_eq ?_))
  simp

theorem removeByName_eq (function table : String) : removeByName function table =
    (validateAll [table]).map (fun _ => (removal function table).map Statement.text) := by
  refine check_one table _ ?_
  refine (validateIdent_bind table _).trans (congrArg _ (funext fun _ => ?_))
  refine congrArg Except.ok (congrArg (fun t => [t]) (text_eq ?_))
  simp

theorem dropChunks_eq (table : String) (olderThan : Interval) : dropChunks table olderThan =
    (validateAll (Helper.dropChunks table olderThan).identifiers).map
      (fun _ => (Helper.dropChunks table olderThan).statements.map Statement.text) := by
  refine check_one table _ ?_
  refine (validateIdent_bind table _).trans (congrArg _ (funext fun _ => ?_))
  refine congrArg Except.ok (congrArg (fun t => [t]) (text_eq ?_))
  simp

/-- **A helper executes its statements if all its names pass the check, and none otherwise.** -/
theorem plan_eq (h : Helper) : h.plan = (validateAll h.identifiers).map (fun _ => h.statements.map Statement.text) := by
  cases h with
  | createHypertable config => exact createHypertable_eq config
  | enableCompression table config => exact enableCompression_eq table config
  | addRetentionPolicy table config => exact addRetentionPolicy_eq table config
  | createContinuousAggregate selectSql config => exact createContinuousAggregate_eq selectSql config
  | refreshContinuousAggregate view start stop => exact refreshContinuousAggregate_eq view start stop
  | removeRetentionPolicy table => exact removeByName_eq _ table
  | removeCompressionPolicy table => exact removeByName_eq _ table
  | removeContinuousAggregatePolicy view => exact removeByName_eq _ view
  | dropChunks table olderThan => exact dropChunks_eq table olderThan

/-! ## What the statements are read as -/

open SqlText (Spaced NoNul isWordChar isWordStart endsName endsString)

/-- No character that ends or spoils a value between quotes. -/
def Clean (v : String) : Prop := ∀ c ∈ v.toList, c ≠ '\'' ∧ c ≠ '"' ∧ c.toNat ≠ 0

instance (v : String) : Decidable (Clean v) := List.decidableBAll _ _

theorem clean_append {a b : String} (ha : Clean a) (hb : Clean b) : Clean (a ++ b) := by
  intro c hc
  rcases List.mem_append.1 (String.toList_append ▸ hc) with hc | hc
  · exact ha c hc
  · exact hb c hc

theorem clean_wordChar {c : Char} (h : isWordChar c = true) : c ≠ '\'' ∧ c ≠ '"' ∧ c.toNat ≠ 0 := by
  refine ⟨?_, ?_, SqlText.isWordChar_ne_zero h⟩
  · rintro rfl
    exact absurd h (by decide)
  · rintro rfl
    exact absurd h (by decide)

/-- What the check lets pass is made of characters of words. -/
theorem ident_chars {v : String} (h : isIdent v = true) : v ≠ "" ∧ ∀ c ∈ v.toList, isWordChar c = true := by
  simp only [isIdent, Bool.and_eq_true, List.all_eq_true, decide_eq_true_eq] at h
  refine ⟨h.1, fun c hc => ?_⟩
  rcases Bool.or_eq_true_iff.1 (h.2 c hc) with hal | hus
  · rcases Bool.or_eq_true_iff.1 hal with hal | hdigit
    · rw [isWordChar, isWordStart, hal, Bool.true_or, Bool.true_or, Bool.true_or, Bool.true_or]
    · rw [isWordChar, hdigit, Bool.or_true, Bool.true_or]
  · rw [of_decide_eq_true hus]
    decide

theorem clean_ident {v : String} (h : isIdent v = true) : Clean v := fun c hc => clean_wordChar ((ident_chars h).2 c hc)

theorem clean_repr (m : Nat) : Clean (Nat.repr m) := by
  intro c hc
  rw [Nat.toList_repr] at hc
  have hdigit := Nat.isDigit_of_mem_toDigits (by decide) (by decide) hc
  refine clean_wordChar ?_
  rw [isWordChar, hdigit, Bool.or_true, Bool.true_or]

theorem clean_display64 (n : Int64) : Clean (display64 n) := by
  unfold display64
  split
  · exact clean_append (by decide) (clean_repr _)
  · exact clean_repr _

theorem clean_display (i : Interval) : Clean i.display := by
  cases i <;> exact clean_append (clean_display64 _) (by decide)

theorem clean_intercalate : ∀ {items : List String}, (∀ v ∈ items, Clean v) → Clean (", ".intercalate items)
  | [], _ => by
    rw [String.intercalate_nil]
    exact fun c hc => absurd hc List.not_mem_nil
  | [v], h => by
    rw [String.intercalate_singleton]
    exact h v List.mem_cons_self
  | v :: w :: items, h => by
    rw [String.intercalate_cons_cons]
    refine clean_append (clean_append (h v List.mem_cons_self) (by decide)) ?_
    exact clean_intercalate (fun u hu => h u (List.mem_cons_of_mem v hu))

/-- A clean value can be put between single quotes. -/
theorem whole_str {v : String} (h : Clean v) : '\'' ∉ v.toList ∧ NoNul v.toList :=
  ⟨fun hm => (h _ hm).1 rfl, fun c hc => (h c hc).2.2⟩

theorem good_name {v : String} (h : isIdent v = true) : (name v).Good := by
  refine ⟨fun hm => (clean_ident h _ hm).2.1 rfl, fun c hc => (clean_ident h c hc).2.2, fun hv => ?_⟩
  exact (ident_chars h).1 (String.toList_eq_nil_iff.1 hv)

/-- The next piece starts with a character that ends the value. -/
theorem next_text {t : String} {p : Char → Bool} (ps : List Piece) (rest : List Char) (h : t.toList.head?.any p = true) :
    (renderAll (text t :: ps) ++ rest).head?.any p = true := by
  rw [SqlText.renderAll_cons, render_text]
  cases ht : t.toList with
  | nil =>
    rw [ht] at h
    cases h
  | cons c cs =>
    rw [ht] at h
    exact h

theorem spaced_removal {function table : String} (ht : '\'' ∉ table.toList ∧ NoNul table.toList)
    (hf : (scan ⟨[], .start⟩ ("SELECT ".toList ++ function.toList ++ "(".toList)).mode = .start) :
    ∀ st ∈ removal function table, Spaced st.raw.toList st.pieces := by
  refine List.forall_mem_singleton.2 ⟨?_, ht, next_text _ _ rfl, rfl, trivial⟩
  rwa [String.toList_append, String.toList_append]

/-- No piece of a statement runs into the next, if the names pass the check. -/
theorem spaced_statements {h : Helper} (hid : ∀ n ∈ h.identifiers, isIdent n = true) :
    ∀ st ∈ h.statements, Spaced st.raw.toList st.pieces := by
  have ident : ∀ n ∈ h.identifiers, '\'' ∉ n.toList ∧ NoNul n.toList := fun n hn => whole_str (clean_ident (hid n hn))
  have interval : ∀ i : Interval, '\'' ∉ i.display.toList ∧ NoNul i.display.toList := fun i => whole_str (clean_display i)
  cases h with
  | createHypertable config =>
    have htable := ident config.tableName List.mem_cons_self
    have hcol := ident config.timeColumn (List.mem_cons_of_mem _ List.mem_cons_self)
    refine List.forall_mem_singleton.2 ?_
    dsimp only
    cases config.chunkInterval with
    | none =>
      cases config.ifNotExists <;>
        exact ⟨rfl, htable, next_text _ _ rfl, rfl, hcol, next_text _ _ rfl, rfl, trivial⟩
    | some i =>
      cases config.ifNotExists <;>
        exact ⟨rfl, htable, next_text _ _ rfl, rfl, hcol, next_text _ _ rfl, rfl, interval i, next_text _ _ rfl, rfl,
          trivial⟩
  | enableCompression table config =>
    have htable := ident table List.mem_cons_self
    have hcols : ∀ n ∈ config.segmentBy ++ config.orderBy.map Prod.fst, Clean n :=
      fun n hn => clean_ident (hid n (List.mem_cons_of_mem _ hn))
    have hsegment := whole_str (clean_intercalate fun n hn => hcols n (List.mem_append_left _ hn))
    have horder : '\'' ∉ config.orderColumns.toList ∧ NoNul config.orderColumns.toList := by
      refine whole_str (clean_intercalate fun v hv => ?_)
      obtain ⟨p, hp, rfl⟩ := List.mem_map.1 hv
      have hcol := hcols p.1 (List.mem_append_right _ (List.mem_map_of_mem hp))
      refine clean_append (clean_append hcol (by decide)) ?_
      cases p.2 <;> decide
    refine List.forall_mem_cons.2 ⟨?_, List.forall_mem_singleton.2 ?_⟩
    · dsimp only
      unfold CompressionConfig.settings
      cases config.segmentBy.isEmpty <;> cases config.orderBy.isEmpty
      · exact ⟨rfl, next_text _ _ rfl, (by decide +kernel), hsegment, next_text _ _ rfl, rfl, horder, next_text _ _ rfl,
          rfl, trivial⟩
      · exact ⟨rfl, next_text _ _ rfl, (by decide +kernel), hsegment, next_text _ _ rfl, rfl, trivial⟩
      · exact ⟨rfl, next_text _ _ rfl, (by decide +kernel), horder, next_text _ _ rfl, rfl, trivial⟩
      · exact ⟨rfl, next_text _ _ rfl, rfl, trivial⟩
    · exact ⟨rfl, htable, next_text _ _ rfl, rfl, interval _, next_text _ _ rfl, rfl, trivial⟩
  | addRetentionPolicy table config =>
    have htable := ident table List.mem_cons_self
    exact List.forall_mem_singleton.2
      ⟨rfl, htable, next_text _ _ rfl, rfl, interval _, next_text _ _ rfl, rfl, trivial⟩
  | dropChunks table olderThan =>
    have htable := ident table List.mem_cons_self
    exact List.forall_mem_singleton.2
      ⟨rfl, htable, next_text _ _ rfl, rfl, interval _, next_text _ _ rfl, rfl, trivial⟩
  | refreshContinuousAggregate view start stop =>
    have hview := ident view List.mem_cons_self
    exact List.forall_mem_singleton.2
      ⟨rfl, hview, next_text _ _ rfl, rfl, next_text _ _ rfl, rfl, next_text _ _ rfl, rfl, trivial⟩
  | removeRetentionPolicy table | removeCompressionPolicy table | removeContinuousAggregatePolicy table =>
    exact spaced_removal (ident table List.mem_cons_self) rfl
  | createContinuousAggregate selectSql config =>
    have hview := ident config.viewName List.mem_cons_self
    refine List.forall_mem_cons.2 ⟨⟨rfl, next_text _ _ rfl, rfl, trivial⟩, ?_⟩
    cases config.refreshPolicy with
    | none => exact fun st hst => absurd hst List.not_mem_nil
    | some policy =>
      exact List.forall_mem_singleton.2 ⟨rfl, hview, next_text _ _ rfl, rfl, interval _, next_text _ _ rfl, rfl,
        interval _, next_text _ _ rfl, rfl, interval _, next_text _ _ rfl, rfl, trivial⟩

@[simp] theorem name_ne_text (v : List Char) (t : String) : Piece.name v ≠ text t := fun h => Piece.noConfusion h

@[simp] theorem name_ne_str (v : List Char) (t : String) : Piece.name v ≠ str t := fun h => Piece.noConfusion h

@[simp] theorem escaped_ne_text (v : List Char) (t : String) : Piece.escaped v ≠ text t := fun h => Piece.noConfusion h

@[simp] theorem escaped_ne_str (v : List Char) (t : String) : Piece.escaped v ≠ str t := fun h => Piece.noConfusion h

@[simp] theorem escaped_ne_name (v : List Char) (t : String) : Piece.escaped v ≠ name t := fun h => Piece.noConfusion h

@[simp] theorem name_eq_name (v : List Char) (n : String) : Piece.name v = name n ↔ v = n.toList :=
  ⟨Piece.name.inj, congrArg Piece.name⟩

/-- The names between double quotes are the quoted ones of the helper. -/
theorem mem_quotedNames (h : Helper) (v : List Char) :
    (∃ st ∈ h.statements, Piece.name v ∈ st.pieces) ↔ ∃ n ∈ h.quotedNames, v = n.toList := by
  cases h with
  | createHypertable config =>
    cases hc : config.chunkInterval <;> simp [Helper.statements, Helper.quotedNames, hc]
  | enableCompression table config =>
    have hsettings : Piece.name v ∉ config.settings := by
      unfold CompressionConfig.settings
      cases config.segmentBy.isEmpty <;> cases config.orderBy.isEmpty <;> simp
    simp [Helper.statements, Helper.quotedNames, hsettings]
  | createContinuousAggregate selectSql config =>
    cases hp : config.refreshPolicy <;> simp [Helper.statements, Helper.quotedNames, hp]
  | addRetentionPolicy | refreshContinuousAggregate | dropChunks | removeRetentionPolicy | removeCompressionPolicy
  | removeContinuousAggregatePolicy => simp [Helper.statements, Helper.quotedNames, removal]

theorem statement_toList (st : Statement) : st.text.toList = renderAll st.pieces ++ st.raw.toList := String.toList_ofList

theorem quotedNames_subset (h : Helper) : h.quotedNames ⊆ h.identifiers := by
  cases h with
  | enableCompression => exact List.cons_subset_cons _ (List.nil_subset _)
  | createContinuousAggregate => exact List.Subset.refl _
  | createHypertable | addRetentionPolicy | refreshContinuousAggregate | dropChunks | removeRetentionPolicy
  | removeCompressionPolicy | removeContinuousAggregatePolicy => exact List.nil_subset _

/-- The escaped pieces are the escaped texts of the helper. -/
theorem mem_escapedTexts (h : Helper) (v : List Char) :
    (∃ st ∈ h.statements, Piece.escaped v ∈ st.pieces) ↔ ∃ t ∈ h.escapedTexts, v = t.toList := by
  cases h with
  | createHypertable config =>
    cases hc : config.chunkInterval <;> simp [Helper.statements, Helper.escapedTexts, hc]
  | enableCompression table config =>
    have hsettings : Piece.escaped v ∉ config.settings := by
      unfold CompressionConfig.settings
      cases config.segmentBy.isEmpty <;> cases config.orderBy.isEmpty <;> simp
    simp [Helper.statements, Helper.escapedTexts, hsettings]
  | createContinuousAggregate selectSql config =>
    cases hp : config.refreshPolicy <;> simp [Helper.statements, Helper.escapedTexts, hp]
  | addRetentionPolicy | refreshContinuousAggregate | dropChunks | removeRetentionPolicy | removeCompressionPolicy
  | removeContinuousAggregatePolicy => simp [Helper.statements, Helper.escapedTexts, removal]

/-- Only the body of a view is passed on as it is. -/
theorem raw_of_escaped {h : Helper} (hne : h.escapedTexts ≠ []) : ∀ st ∈ h.statements, st.raw = "" := by
  cases h with
  | refreshContinuousAggregate view start stop => exact List.forall_mem_singleton.2 rfl
  | createHypertable | enableCompression | addRetentionPolicy | createContinuousAggregate | removeRetentionPolicy
  | removeCompressionPolicy | removeContinuousAggregatePolicy | dropChunks => exact absurd rfl hne

/-- No value of the statements breaks out of its quotes if no escaped text has a character zero. -/
theorem good_statements {h : Helper} (hid : ∀ n ∈ h.identifiers, isIdent n = true)
    (hnul : ∀ v ∈ h.escapedTexts, NoNul v.toList) : ∀ st ∈ h.statements, ∀ p ∈ st.pieces, p.Good := by
  intro st hst p hp
  cases p with
  | text | string => trivial
  | name v =>
    obtain ⟨n, hn, rfl⟩ := (mem_quotedNames h v).1 ⟨st, hst, hp⟩
    exact good_name (hid n (quotedNames_subset h hn))
  | escaped v =>
    obtain ⟨t, ht, rfl⟩ := (mem_escapedTexts h v).1 ⟨st, hst, hp⟩
    exact hnul t ht

theorem perform_isPrefix (execute : String → Except DbErr Unit) : ∀ sqls : List String, (perform execute sqls).1 <+: sqls
  | [] => List.prefix_refl []
  | sql :: rest => by
    rw [perform]
    split
    · exact ⟨rest, rfl⟩
    · exact (List.prefix_cons_inj sql).2 (perform_isPrefix execute rest)

/-- A statement without SQL of the caller is scanned as its pieces only if no value breaks out of its quotes. -/
theorem good_of_scan {st : Statement} (hs : Spaced st.raw.toList st.pieces) (hraw : st.raw = "")
    (h : scan ⟨[], .start⟩ st.text.toList = scan ⟨meantAll st.pieces, .start⟩ st.raw.toList) :
    ∀ p ∈ st.pieces, p.Good := by
  rw [statement_toList, hraw, String.toList_empty, List.append_nil] at h
  rw [hraw] at hs
  exact (SqlText.lex_render_iff hs).1 (congrArg SqlText.finish h)

/-- **What a helper sends**: nothing, if one of its names is not an identifier, and the error names the first such; else its
statements, up to the first that fails.  Each of them is read as its pieces, with each name, interval and escaped text as
one value, exactly if no escaped text has a character zero and no name between double quotes is longer than PostgreSQL
keeps it. -/
theorem helper_sends (reserved : List Char → Bool) (execute : String → Except DbErr Unit) (h : Helper) :
    (∀ n, h.identifiers.find? (fun n => !isIdent n) = some n →
      h.call execute = ([], .error (.custom ("Invalid SQL identifier: '" ++ n ++ "'")))) ∧
    ((∀ n ∈ h.identifiers, isIdent n = true) →
      h.call execute = perform execute (h.statements.map Statement.text) ∧
      (h.call execute).1 <+: h.statements.map Statement.text ∧
      ((∀ st ∈ h.statements, st.Read reserved) ↔
        (∀ v ∈ h.escapedTexts, NoNul v.toList) ∧ ∀ n ∈ h.quotedNames, SqlText.bytes n.toList ≤ SqlText.maxIdentBytes)) := by
  constructor
  · intro n hn
    rw [Helper.call, plan_eq, validateAll_eq, hn]
    rfl
  · intro hid
    have hplan : h.plan = .ok (h.statements.map Statement.text) := by
      have hnone : h.identifiers.find? (fun n => !isIdent n) = none :=
        List.find?_eq_none.2 (fun n hn => by rw [hid n hn]; exact Bool.false_ne_true)
      rw [plan_eq, validateAll_eq, hnone]
      rfl
    have hcall : h.call execute = perform execute (h.statements.map Statement.text) := by
      rw [Helper.call, hplan]
    refine ⟨hcall, hcall ▸ perform_isPrefix execute _, ?_⟩
    constructor
    · intro hread
      constructor
      · intro v hv
        obtain ⟨st, hst, hp⟩ := (mem_escapedTexts h v.toList).2 ⟨v, hv, rfl⟩
        have hraw := raw_of_escaped (List.ne_nil_of_mem hv) st hst
        exact good_of_scan (spaced_statements hid st hst) hraw (hread st hst).1 _ hp
      · intro n hn
        obtain ⟨st, hst, hp⟩ := (mem_quotedNames h n.toList).2 ⟨n, hn, rfl⟩
        exact (SqlText.ident?_name_iff reserved n.toList).1 ((hread st hst).2 n.toList hp)
    · rintro ⟨hnul, hshort⟩ st hst
      have hgood := good_statements hid hnul st hst
      rw [Statement.Read, statement_toList, SqlText.scan_render st.pieces [] (spaced_statements hid st hst) hgood]
      refine ⟨rfl, fun v hv => ?_⟩
      obtain ⟨n, hn, rfl⟩ := (mem_quotedNames h v).1 ⟨st, hst, hv⟩
      exact (SqlText.ident?_name_iff reserved n.toList).2 (hshort n hn)

theorem helper_sends_refresh :
    ((Helper.refreshContinuousAggregate "daily" "o'clock" "now").call (fun _ => .ok ())).1 =
      ["CALL refresh_continuous_aggregate('daily', 'o''clock', 'now')"] := by
  have hcall := ((helper_sends (fun _ => false) (fun _ => .ok ())
    (.refreshContinuousAggregate "daily" "o'clock" "now")).2 (by decide)).1
  rw [hcall]
  decide

/-! ## The columns in the settings

TimescaleDB reads the two lists of columns once more, as SQL.  There a column is a word, which is folded, and cannot be one of
the reserved words. -/

/-- Words, each with what follows it, the last without. -/
def listed : List (String × String) → List (List Char × List Char)
  | [] => []
  | [(w, _)] => [(w.toList, [])]
  | (w, sep) :: next :: rest => (w.toList, sep.toList) :: listed (next :: rest)

def CompressionConfig.segmentWords (config : CompressionConfig) : List (String × String) :=
  config.segmentBy.map (fun c => (c, ", "))

def CompressionConfig.orderWords (config : CompressionConfig) : List (String × String) :=
  config.orderBy.flatMap (fun p => [(p.1, " "), (p.2.display, ", ")])

theorem phraseText_cons (p : List Char × List Char) (l : List (List Char × List Char)) :
    SqlText.phraseText (p :: l) = p.1 ++ p.2 ++ SqlText.phraseText l := rfl

theorem segment_text : ∀ cols : List String,
    SqlText.phraseText (listed (cols.map (fun c => (c, ", ")))) = (", ".intercalate cols).toList
  | [] => by rw [String.intercalate_nil]; rfl
  | [c] => by
    rw [String.intercalate_singleton, List.map_singleton, listed, phraseText_cons, List.append_nil]
    exact List.append_nil _
  | c :: d :: cols => by
    have ih := segment_text (d :: cols)
    rw [List.map_cons] at ih
    rw [String.intercalate_cons_cons, String.toList_append, String.toList_append, ← ih, List.map_cons, List.map_cons,
      listed, phraseText_cons]

theorem order_text : ∀ cols : List (String × SortDirection),
    SqlText.phraseText (listed (cols.flatMap (fun p => [(p.1, " "), (p.2.display, ", ")]))) =
      (", ".intercalate (cols.map (fun p => p.1 ++ " " ++ p.2.display))).toList
  | [] => by rw [List.map_nil, String.intercalate_nil]; rfl
  | [(c, d)] => by
    rw [List.map_singleton, String.intercalate_singleton, List.flatMap_singleton, listed, listed, phraseText_cons,
      phraseText_cons, String.toList_append, String.toList_append, List.append_nil]
    exact congrArg _ (List.append_nil _)
  | (c, d) :: p :: cols => by
    have ih := order_text (p :: cols)
    rw [List.flatMap_cons, List.cons_append, List.map_cons] at ih
    rw [List.map_cons, List.map_cons, String.intercalate_cons_cons, String.toList_append, String.toList_append, ← ih,
      List.flatMap_cons, List.flatMap_cons, List.cons_append, List.cons_append, List.cons_append, List.nil_append, listed,
      listed, phraseText_cons, phraseText_cons, String.toList_append, String.toList_append]
    simp only [List.append_assoc]

theorem phrased_listed : ∀ {l : List (String × String)}, (∀ p ∈ l, isIdent p.1 = true ∧ (p.2 = " " ∨ p.2 = ", ")) →
    SqlText.Phrased (listed l)
  | [], _ => trivial
  | [(w, sep)], h => by
    obtain ⟨hne, hw⟩ := ident_chars (h _ List.mem_cons_self).1
    exact ⟨fun hnil => hne (String.toList_eq_nil_iff.1 hnil), hw, fun c hc => (by cases hc), rfl, trivial⟩
  | (w, sep) :: next :: rest, h => by
    obtain ⟨hid, hsep⟩ := h _ List.mem_cons_self
    obtain ⟨hne, hw⟩ := ident_chars hid
    refine ⟨fun hnil => hne (String.toList_eq_nil_iff.1 hnil), hw, ?_, ?_,
      phrased_listed (fun p hp => h p (List.mem_cons_of_mem _ hp))⟩
    · rcases hsep with rfl | rfl
      · exact fun c hc => by obtain rfl := Option.some.inj hc; rfl
      · exact fun c hc => by obtain rfl := Option.some.inj hc; rfl
    · rcases hsep with rfl | rfl <;> rfl

theorem mem_listed : ∀ (l : List (String × String)) (w : List Char),
    (∃ sep, (w, sep) ∈ listed l) ↔ ∃ p ∈ l, w = p.1.toList
  | [], w => by simp [listed]
  | [(v, _)], w => by simp [listed]
  | (v, sep) :: next :: rest, w => by
    have ih := mem_listed (next :: rest) w
    rw [listed]
    constructor
    · rintro ⟨sep', hs⟩
      rcases List.mem_cons.1 hs with heq | hs
      · exact ⟨_, List.mem_cons_self, (Prod.mk.inj heq).1⟩
      · obtain ⟨p, hp, hw⟩ := ih.1 ⟨sep', hs⟩
        exact ⟨p, List.mem_cons_of_mem _ hp, hw⟩
    · rintro ⟨p, hp, rfl⟩
      rcases List.mem_cons.1 hp with rfl | hp
      · exact ⟨_, List.mem_cons_self⟩
      · obtain ⟨sep', hs⟩ := ih.2 ⟨p, hp, rfl⟩
        exact ⟨sep', List.mem_cons_of_mem _ hs⟩

/-- A name that does not start with a digit. -/
def startsAsWord (column : String) : Bool := column.toList.head?.all SqlText.isWordStart

/-- A list of checked names is read as these words exactly if none starts with a digit. -/
theorem listed_read_iff {l : List (String × String)} (h : ∀ p ∈ l, isIdent p.1 = true ∧ (p.2 = " " ∨ p.2 = ", ")) :
    lex (SqlText.phraseText (listed l)) = some (SqlText.phraseTokens (listed l)) ↔ ∀ p ∈ l, startsAsWord p.1 = true := by
  rw [SqlText.lex_phrase_iff (phrased_listed h)]
  constructor
  · intro hall p hp
    obtain ⟨sep, hs⟩ := (mem_listed l p.1.toList).2 ⟨p, hp, rfl⟩
    exact Option.all_eq_true_iff_get _ _ |>.2 (fun hsome => hall _ hs _ (Option.get_mem hsome))
  · intro hall p hp c hc
    obtain ⟨q, hq, hw⟩ := (mem_listed l p.1).1 ⟨p.2, hp⟩
    have hstart := hall q hq
    rw [startsAsWord, ← hw, hc] at hstart
    exact hstart

theorem direction_word (d : SortDirection) : isIdent d.display = true ∧ startsAsWord d.display = true := by
  cases d <;> decide

/-- The two lists are read as their words exactly if none of the columns starts with a digit. -/
theorem words_read_iff (table : String) (config : CompressionConfig)
    (hid : ∀ n ∈ (Helper.enableCompression table config).identifiers, isIdent n = true) :
    (lex config.segmentColumns.toList = some (SqlText.phraseTokens (listed config.segmentWords)) ∧
      lex config.orderColumns.toList = some (SqlText.phraseTokens (listed config.orderWords))) ↔
    ∀ c ∈ config.segmentBy ++ config.orderBy.map Prod.fst, startsAsWord c = true := by
  have hcols : ∀ c ∈ config.segmentBy ++ config.orderBy.map Prod.fst, isIdent c = true :=
    fun c hc => hid c (List.mem_cons_of_mem _ hc)
  have hseg : ∀ p ∈ config.segmentWords, isIdent p.1 = true ∧ (p.2 = " " ∨ p.2 = ", ") := by
    intro p hp
    obtain ⟨c, hc, rfl⟩ := List.mem_map.1 hp
    exact ⟨hcols c (List.mem_append_left _ hc), .inr rfl⟩
  have hord : ∀ p ∈ config.orderWords, isIdent p.1 = true ∧ (p.2 = " " ∨ p.2 = ", ") := by
    intro p hp
    obtain ⟨⟨c, d⟩, hc, hp⟩ := List.mem_flatMap.1 hp
    rcases List.mem_cons.1 hp with rfl | hp
    · exact ⟨hcols c (List.mem_append_right _ (List.mem_map_of_mem hc)), .inl rfl⟩
    · rw [List.mem_singleton.1 hp]
      exact ⟨(direction_word d).1, .inr rfl⟩
  have hsegment := listed_read_iff hseg
  have horder := listed_read_iff hord
  rw [CompressionConfig.segmentWords, segment_text] at hsegment
  rw [CompressionConfig.orderWords, order_text] at horder
  rw [CompressionConfig.segmentColumns, CompressionConfig.orderColumns, CompressionConfig.segmentWords,
    CompressionConfig.orderWords, hsegment, horder, List.forall_mem_append, List.forall_mem_map, List.forall_mem_map]
  refine and_congr_right (fun _ => ?_)
  constructor
  · intro h p hp
    exact h (p.1, " ") (List.mem_flatMap.2 ⟨p, hp, List.mem_cons_self⟩)
  · intro h p hp
    obtain ⟨⟨c, d⟩, hc, hp⟩ := List.mem_flatMap.1 hp
    rcases List.mem_cons.1 hp with rfl | hp
    · exact h (c, d) hc
    · rw [List.mem_singleton.1 hp]
      exact (direction_word d).2

/-- **The columns that `enable_compression` has checked are read as these columns exactly if** none of them starts with a
digit, has a capital letter, is reserved, or is longer than PostgreSQL keeps it: the check asks for none of this. -/
theorem columns_read_iff (reserved : List Char → Bool) (table : String) (config : CompressionConfig)
    (hid : ∀ n ∈ (Helper.enableCompression table config).identifiers, isIdent n = true) :
    ((lex config.segmentColumns.toList = some (SqlText.phraseTokens (listed config.segmentWords)) ∧
        lex config.orderColumns.toList = some (SqlText.phraseTokens (listed config.orderWords))) ∧
      ∀ c ∈ config.segmentBy ++ config.orderBy.map Prod.fst, (Token.word c.toList).ident? reserved = some c.toList) ↔
    ∀ c ∈ config.segmentBy ++ config.orderBy.map Prod.fst, startsAsWord c = true ∧
      SqlText.fold c.toList = c.toList ∧ reserved c.toList = false ∧ SqlText.bytes c.toList ≤ SqlText.maxIdentBytes := by
  rw [words_read_iff table config hid, ← forall₂_and]
  exact forall₂_congr (fun c _ => and_congr_right' (SqlText.ident?_word_iff reserved c.toList))

/-- The logs of a device, with the latest first. -/
def byDevice : CompressionConfig := ⟨["device_id"], [("time", .desc)], .days 7⟩

theorem columns_read_iff_byDevice :
    (lex "device_id".toList = some (SqlText.phraseTokens (listed byDevice.segmentWords)) ∧
        lex "time DESC".toList = some (SqlText.phraseTokens (listed byDevice.orderWords))) ∧
      ∀ c ∈ ["device_id", "time"], (Token.word c.toList).ident? ["order".toList, "user".toList].contains = some c.toList :=
  (columns_read_iff ["order".toList, "user".toList].contains "logs" byDevice (by decide)).2 (by decide)

end Timescale
end ZeroDowntime
