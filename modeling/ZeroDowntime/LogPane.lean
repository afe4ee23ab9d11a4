import ZeroDowntime.ApiLogPages
import ZeroDowntime.Viewport
/-!
# LogPane — the log pane of the terminal client

An entry is wrapped into rows of the pane's width, the first with the time, the level and the device in front.  The pane is
filled from the newest entry backwards; how `chrono` writes the time of day is a parameter.
-/
namespace ZeroDowntime
namespace LogTui

open Api (DeviceLogModel ApplicationLogModel DeviceModel)
open Logs (LogLevel)

inductive Color
  | darkGray
  | gray
  | green
  | yellow
  | red
  | magenta
  deriving DecidableEq, Repr

inductive Style
  | raw
  | dim
  | fg (color : Color)
  deriving DecidableEq, Repr

structure Span where
  content : List Char
  style : Style
  deriving DecidableEq, Repr

abbrev Line := List Span

inductive LogEvent
  | device (m : DeviceLogModel)
  | application (m : ApplicationLogModel)
  deriving DecidableEq, Repr

def levelStr : LogLevel → String
  | .trace => "trace"
  | .debug => "debug"
  | .info => "info"
  | .warn => "warn"
  | .error => "error"
  | .fatal => "fatal"

def levelColor : LogLevel → Color
  | .trace => .darkGray
  | .debug => .gray
  | .info => .green
  | .warn => .yellow
  | .error => .red
  | .fatal => .magenta

/-! ## Wrapping -/

/-- `char::is_whitespace`: the characters of Unicode's White_Space. -/
def isWhitespace (c : Char) : Bool :=
  let n := c.toNat
  (0x9 ≤ n && n ≤ 0xD) || n = 0x20 || n = 0x85 || n = 0xA0 || n = 0x1680 || (0x2000 ≤ n && n ≤ 0x200A) || n = 0x2028 ||
    n = 0x2029 || n = 0x202F || n = 0x205F || n = 0x3000

def splitWhitespace (text : List Char) : List (List Char) := (text.splitOnP isWhitespace).filter (fun word => !word.isEmpty)

/-- The widths of the first line and of the others. -/
structure Widths where
  first : Nat
  cont : Nat
  first_pos : 0 < first
  cont_pos : 0 < cont

def Widths.of (firstWidth contWidth : Nat) : Widths where
  first := max firstWidth 1
  cont := max contWidth 1
  first_pos := by omega
  cont_pos := by omega

def Widths.limitFor (w : Widths) (lineIdx : Nat) : Nat := if lineIdx = 0 then w.first else w.cont

theorem Widths.limitFor_pos (w : Widths) (lineIdx : Nat) : 0 < w.limitFor lineIdx := by
  unfold limitFor
  split
  · exact w.first_pos
  · exact w.cont_pos

/-- The inner loop of `wrap_text`: a word goes on the current line, on a line of its own, or on as many as it takes. -/
def placeWord (w : Widths) (out : List (List Char)) (cur word : List Char) : List (List Char) × List Char :=
  let limit := w.limitFor out.length
  let sep := (!cur.isEmpty).toNat
  if cur.length + sep + word.length ≤ limit then (out, (if cur.isEmpty then cur else cur ++ [' ']) ++ word)
  else if cur.isEmpty then
    let rest := word.drop limit
    if rest.isEmpty then (out ++ [word.take limit], cur) else placeWord w (out ++ [word.take limit]) cur rest
  else placeWord w (out ++ [cur]) [] word
termination_by (word.length, cur.length)
decreasing_by
  · rename_i hfit hcur _
    have hpos := w.limitFor_pos out.length
    obtain rfl := List.isEmpty_iff.1 hcur
    have hsep : sep = 0 := rfl
    rw [hsep, List.length_nil] at hfit
    exact Prod.Lex.left _ _ (by rw [List.length_drop]; omega)
  · rename_i hcur
    refine Prod.Lex.right _ (List.length_pos_iff.2 (fun h => hcur ?_))
    rw [h]
    rfl

def wrapText (text : List Char) (firstWidth contWidth : Nat) : List (List Char) :=
  let placed := (splitWhitespace text).foldl (fun s word => placeWord (.of firstWidth contWidth) s.1 s.2 word) ([], [])
  if !placed.2.isEmpty || placed.1.isEmpty then placed.1 ++ [placed.2] else placed.1

/-! ## Entries -/

/-- Hanging indent applied to wrapped continuation rows of a log entry. -/
def contIndent : Nat := 2

/-- `{:<n}` -/
def padRight (n : Nat) (text : List Char) : List Char := text ++ List.replicate (n - text.length) ' '

def LogEvent.time : LogEvent → Int
  | .device m => m.time
  | .application m => m.time

def LogEvent.level : LogEvent → LogLevel
  | .device m => m.level
  | .application m => m.level

def LogEvent.message : LogEvent → List Char
  | .device m => m.message
  | .application m => m.message

def LogEvent.source : LogEvent → Option (List Char)
  | .device m => m.source
  | .application m => m.source

def LogEvent.tag : LogEvent → List Char
  | .device m => "[dev ".toList ++ (toString m.deviceId).toList ++ "] ".toList
  | .application m => "[dev ".toList ++ (toString m.deviceId).toList ++ "/app ".toList ++
      (toString m.applicationId).toList ++ "] ".toList

def LogEvent.body (e : LogEvent) : List Char :=
  match e.source with
  | some s => e.message ++ (" (".toList ++ s ++ ")".toList)
  | none => e.message

/-- `clock` writes a time as `%H:%M:%S`. -/
def renderEntry (clock : Int → List Char) (width : Nat) (e : LogEvent) : List Line :=
  let timeStr := clock e.time ++ [' ']
  let levelStrUp := padRight 5 ((levelStr e.level).toList.map Char.toUpper) ++ [' ']
  let prefixW := timeStr.length + levelStrUp.length + e.tag.length
  let width := max width 1
  let firstW := max (width - prefixW) 1
  let contW := max (width - contIndent) 1
  let chunks := wrapText e.body firstW contW
  [⟨timeStr, .dim⟩, ⟨levelStrUp, .fg (levelColor e.level)⟩, ⟨e.tag, .dim⟩, ⟨chunks.head?.getD [], .raw⟩] ::
    (chunks.drop 1).map (fun chunk => [⟨List.replicate contIndent ' ' ++ chunk, .raw⟩])

/-! ## The pane -/

def utf8Len : List Char → Nat
  | [] => 0
  | c :: text => c.utf8Size + utf8Len text

/-- The least memory an entry takes: its record, with an id of 16 bytes, a time of 12 and two strings of 24, and the texts.
-/
def LogEvent.bytes (e : LogEvent) : Nat := 64 + utf8Len e.message + utf8Len (e.source.getD [])

def totalBytes : List LogEvent → Nat
  | [] => 0
  | e :: entries => e.bytes + totalBytes entries

/-- The entries a deque holds are in memory together, at addresses of 64 bits. -/
structure LogDeque where
  entries : List LogEvent
  fits : totalBytes entries < 18446744073709551616

structure App where
  devices : List DeviceModel
  selected : Nat
  minLevel : Option LogLevel
  logs : LogDeque
  scroll : Nat
  viewport : Nat

structure Rect where
  width : UInt16
  height : UInt16
  deriving DecidableEq, Repr

/-- What is drawn: the title of the border and the lines inside it. -/
structure Pane where
  title : String
  visible : List Line
  deriving DecidableEq, Repr

def usizeMax : Nat := 18446744073709551615

/-- `usize::saturating_add`. -/
def saturatingAdd (a b : Nat) : Nat := min (a + b) usizeMax

/-- `a - b` where it does not underflow. -/
def checkedSub (a b : Nat) : Option Nat := if b ≤ a then some (a - b) else none

/-- `rows[start..stop]` where it is in range. -/
def slice {α : Type} (rows : List α) (start stop : Nat) : Option (List α) :=
  if start ≤ stop ∧ stop ≤ rows.length then some ((rows.take stop).drop start) else none

def App.selectedDeviceLabel (app : App) : String :=
  if app.selected = 0 then "all"
  else
    match app.devices[app.selected - 1]? with
    | some d => "#" ++ toString d.id
    | none => "all"

def App.title (app : App) : String :=
  let title := "Logs — level:" ++ (app.minLevel.map levelStr).getD "all" ++ "  device:" ++ app.selectedDeviceLabel
  if 0 < app.scroll then title ++ "  ↑" ++ toString app.scroll ++ " (u/d scroll)" else title

/-- `none` where an index is out of range or a subtraction underflows. -/
def drawLogs (clock : Int → List Char) (app : App) (area : Rect) : Option (App × Pane) :=
  let innerW := area.width.toNat - 2
  let innerH := area.height.toNat - 2
  let need := saturatingAdd innerH app.scroll
  let rows := Viewport.gather (renderEntry clock innerW) need app.logs.entries.reverse []
  let maxScroll := rows.length - innerH
  let app := { app with viewport := innerH, scroll := min app.scroll maxScroll }
  (checkedSub rows.length app.scroll).bind (fun stop =>
    (slice rows (stop - innerH) stop).map (fun visible => (app, ⟨app.title, visible⟩)))

/-! ## There are fewer rows than `usize` counts -/

/-- The lines a text takes so far. -/
def linesOf (s : List (List Char) × List Char) : Nat := s.1.length + (!s.2.isEmpty).toNat

/-- **A word makes no more lines than it has characters.** -/
theorem linesOf_placeWord (w : Widths) (out : List (List Char)) (cur word : List Char) (hword : word ≠ []) :
    linesOf (placeWord w out cur word) ≤ linesOf (out, cur) + word.length := by
  have hpos : 0 < word.length := List.length_pos_iff.2 hword
  fun_induction placeWord w out cur word with
  | case1 out cur word limit sep hfit =>
    have hle := Bool.toNat_le (!((if cur.isEmpty = true then cur else cur ++ [' ']) ++ word).isEmpty)
    simp only [linesOf]
    omega
  | case2 out cur word limit sep hfit hcur rest hrest =>
    simp only [linesOf, List.length_append, List.length_singleton]
    omega
  | case3 out cur word limit sep hfit hcur rest hrest ih =>
    have hlimit := w.limitFor_pos out.length
    have hlen : rest.length = word.length - limit := List.length_drop
    have hrest : rest ≠ [] := fun h => hrest (by rw [h]; rfl)
    have hstep := ih hrest (List.length_pos_iff.2 hrest)
    simp only [linesOf, List.length_append, List.length_singleton] at hstep ⊢
    have := List.length_pos_iff.2 hrest
    omega
  | case4 out cur word limit sep hfit hcur ih =>
    have hstep := ih hword hpos
    simp only [linesOf, hcur, List.length_append, List.length_singleton, List.isEmpty_nil] at hstep ⊢
    simp at hstep ⊢
    omega

theorem flatten_splitOnP (p : Char → Bool) : ∀ text : List Char,
    (text.splitOnP p).flatten = text.filter (fun c => !p c)
  | [] => rfl
  | c :: text => by
    have ih := flatten_splitOnP p text
    rw [List.splitOnP_cons_eq_if_modifyHead]
    split
    · rename_i hc
      rw [List.flatten_cons, List.nil_append, ih, List.filter_cons_of_neg (by rw [hc]; decide)]
    · rename_i hc
      have hkeep : (!p c) = true := by rw [Bool.eq_false_iff.2 hc]; rfl
      cases hsplit : text.splitOnP p with
      | nil => exact absurd hsplit (List.splitOnP_ne_nil p text)
      | cons word words =>
        rw [hsplit] at ih
        rw [List.modifyHead_cons, List.flatten_cons, List.cons_append, ← List.flatten_cons, ih,
          List.filter_cons, if_pos hkeep]

/-- The words are the characters that are not whitespace, in order. -/
theorem flatten_splitWhitespace (text : List Char) :
    (splitWhitespace text).flatten = text.filter (fun c => !isWhitespace c) := by
  rw [splitWhitespace, List.flatten_filter_not_isEmpty]
  exact flatten_splitOnP isWhitespace text

theorem ne_nil_of_mem_splitWhitespace {text word : List Char} (h : word ∈ splitWhitespace text) : word ≠ [] := by
  intro hnil
  have := (List.mem_filter.1 h).2
  rw [hnil] at this
  cases this

theorem linesOf_foldl (w : Widths) : ∀ (words : List (List Char)) (s : List (List Char) × List Char),
    (∀ word ∈ words, word ≠ []) →
      linesOf (words.foldl (fun s word => placeWord w s.1 s.2 word) s) ≤ linesOf s + words.flatten.length
  | [], s, _ => by simp
  | word :: words, s, h => by
    have hword := linesOf_placeWord w s.1 s.2 word (h word List.mem_cons_self)
    have ih := linesOf_foldl w words (placeWord w s.1 s.2 word) (fun v hv => h v (List.mem_cons_of_mem _ hv))
    rw [List.foldl_cons, List.flatten_cons, List.length_append]
    exact ih.trans (by rw [← Nat.add_assoc]; exact Nat.add_le_add_right hword _)

theorem length_wrapText (text : List Char) (firstWidth contWidth : Nat) :
    (wrapText text firstWidth contWidth).length ≤ text.length + 1 := by
  have hlines := linesOf_foldl (.of firstWidth contWidth) (splitWhitespace text) ([], [])
    (fun _ => ne_nil_of_mem_splitWhitespace)
  have hsum : (splitWhitespace text).flatten.length ≤ text.length := by
    rw [flatten_splitWhitespace]
    exact List.length_filter_le _ _
  unfold wrapText
  generalize (splitWhitespace text).foldl _ ([], []) = placed at hlines
  dsimp only
  simp only [linesOf, List.length_nil, List.isEmpty_nil, Bool.not_true, Bool.toNat_false, Nat.zero_add] at hlines
  split
  · rw [List.length_append, List.length_singleton]
    omega
  · omega

theorem length_renderEntry (clock : Int → List Char) (width : Nat) (e : LogEvent) :
    (renderEntry clock width e).length ≤ e.body.length + 1 := by
  have h := length_wrapText e.body
    (max (max width 1 - ((clock e.time ++ [' ']).length +
      (padRight 5 ((levelStr e.level).toList.map Char.toUpper) ++ [' ']).length + e.tag.length)) 1)
    (max (max width 1 - contIndent) 1)
  simp only [renderEntry, List.length_cons, List.length_map, List.length_drop]
  omega

theorem length_le_utf8Len : ∀ text : List Char, text.length ≤ utf8Len text
  | [] => Nat.le_refl 0
  | c :: text => by
    have ih := length_le_utf8Len text
    have hc := c.utf8Size_pos
    rw [List.length_cons, utf8Len]
    omega

theorem length_body (e : LogEvent) : e.body.length + 2 ≤ e.bytes := by
  have hmessage := length_le_utf8Len e.message
  have hsource := length_le_utf8Len (e.source.getD [])
  unfold LogEvent.body LogEvent.bytes
  cases hs : e.source with
  | none =>
    dsimp only
    omega
  | some s =>
    rw [hs, Option.getD_some] at hsource
    have hpar : (" (".toList ++ s ++ ")".toList).length = s.length + 3 := by simp
    dsimp only
    rw [List.length_append, hpar, Option.getD_some]
    omega

theorem length_flatMap_renderEntry (clock : Int → List Char) (width : Nat) : ∀ entries : List LogEvent,
    (entries.flatMap (renderEntry clock width)).length + entries.length ≤ totalBytes entries
  | [] => Nat.le_refl 0
  | e :: entries => by
    have hrows := length_renderEntry clock width e
    have hbytes := length_body e
    have ih := length_flatMap_renderEntry clock width entries
    rw [List.flatMap_cons, List.length_append, List.length_cons, totalBytes]
    omega

/-- **All entries together have fewer rows than the largest `usize`.** -/
theorem rows_lt (clock : Int → List Char) (width : Nat) (logs : LogDeque) :
    (logs.entries.flatMap (renderEntry clock width)).length < usizeMax := by
  have hlen := length_flatMap_renderEntry clock width logs.entries
  have hfits := logs.fits
  unfold usizeMax
  cases hentries : logs.entries with
  | nil =>
    rw [List.flatMap_nil, List.length_nil]
    omega
  | cons e entries =>
    rw [hentries, List.length_cons] at hlen
    rw [hentries] at hfits
    omega

/-! ## The early exit -/

/-- The window's bounds are in range. -/
theorem slice_window {α β : Type} (rows : List α) (height scroll : Nat) (f : List α → β) (h : scroll ≤ rows.length) :
    (checkedSub rows.length scroll).bind (fun stop => (slice rows (stop - height) stop).map f) =
      some (f (Viewport.window height scroll rows)) := by
  have hlen : (rows.rdrop scroll).length = rows.length - scroll := by
    rw [List.rdrop, List.length_take]
    omega
  rw [checkedSub, if_pos h, Option.bind_some, slice, if_pos ⟨by omega, by omega⟩, Viewport.window, List.rtake, hlen]
  rfl

/-- **The pane shows what it would if all entries were rendered, oldest to newest**: the scroll offset is clamped to the
rows above the first window, and the last rows are shown that end that far above the bottom.  No index is out of range and
nothing underflows, whatever the entries, the offset and the size of the pane. -/
theorem draw_logs_as_all_rows (clock : Int → List Char) (app : App) (area : Rect) :
    let height := area.height.toNat - 2
    let rows := app.logs.entries.flatMap (renderEntry clock (area.width.toNat - 2))
    let scroll := min app.scroll (rows.length - height)
    let app' := { app with viewport := height, scroll := scroll }
    drawLogs clock app area = some (app', ⟨app'.title, (rows.rdrop scroll).rtake height⟩) := by
  have hneed : area.height.toNat - 2 + app.scroll ≤ saturatingAdd (area.height.toNat - 2) app.scroll ∨
      (app.logs.entries.flatMap (renderEntry clock (area.width.toNat - 2))).length <
        saturatingAdd (area.height.toNat - 2) app.scroll := by
    have := rows_lt clock (area.width.toNat - 2) app.logs
    unfold saturatingAdd
    omega
  obtain ⟨hclamp, hwindow⟩ := Viewport.window_gather (renderEntry clock (area.width.toNat - 2)) _ _ _ _ hneed
  dsimp only
  unfold drawLogs
  dsimp only
  generalize Viewport.gather (renderEntry clock (area.width.toNat - 2)) _ app.logs.entries.reverse [] = rows at *
  have hle : Viewport.clamp (area.height.toNat - 2) app.scroll rows ≤ rows.length :=
    (Nat.min_le_right _ _).trans (Nat.sub_le _ _)
  have hscroll : min app.scroll (rows.length - (area.height.toNat - 2)) = _ := hclamp
  rw [hclamp] at hle
  rw [hscroll, slice_window rows _ _ _ hle, hwindow]
  rfl

end LogTui
end ZeroDowntime
