import ZeroDowntime.SqlScanner
/-!
# SqlText — texts that are put together, and what they are read as

A text made of fixed pieces and of values between quotes is read as its pieces exactly if no value breaks out of its quotes
(`lex_render_iff`).  A text in parentheses is read as the text in parentheses, unless it ends in a comment
(`lex_wrap`).
-/
namespace SqlText

/-! ## Texts made of pieces -/

/-- A fixed text, or a value: a name or a string as it is, or a string with its quotes doubled. -/
inductive Piece
  | text (t : List Char)
  | name (v : List Char)
  | string (v : List Char)
  | escaped (v : List Char)
  deriving DecidableEq, Repr

def Piece.render : Piece → List Char
  | .text t => t
  | .name v => '"' :: (v ++ ['"'])
  | .string v => '\'' :: (v ++ ['\''])
  | .escaped v => '\'' :: (escape '\'' v ++ ['\''])

/-- What the piece is meant to be read as. -/
def Piece.meant : Piece → List Token
  | .text t => (scan ⟨[], .start⟩ t).tokens
  | .name v => [.name v]
  | .string v | .escaped v => [.string v]

/-- **The value does not break out of its quotes.** -/
def Piece.Good : Piece → Prop
  | .text _ | .string _ => True
  | .name v => '"' ∉ v ∧ NoNul v ∧ v ≠ []
  | .escaped v => NoNul v

def renderAll (ps : List Piece) : List Char := ps.flatMap Piece.render

def meantAll (ps : List Piece) : List Token := ps.flatMap Piece.meant

@[simp] theorem renderAll_nil : renderAll [] = [] := rfl

@[simp] theorem renderAll_cons (p : Piece) (ps : List Piece) : renderAll (p :: ps) = p.render ++ renderAll ps := rfl

@[simp] theorem meantAll_nil : meantAll [] = [] := rfl

@[simp] theorem meantAll_cons (p : Piece) (ps : List Piece) : meantAll (p :: ps) = p.meant ++ meantAll ps := rfl

/-- A character that ends the name before it. -/
def endsName (c : Char) : Bool := c ≠ '"' && c.toNat ≠ 0

/-- A character that ends the string before it at once. -/
def endsString (c : Char) : Bool := c ≠ '\'' && !isSpace c && c ≠ '-' && c.toNat ≠ 0

/-- No piece runs into the next: a fixed text ends between two tokens, what follows a value ends it, and there is no quote in
a string that is put between quotes as it is. -/
def Spaced (rest : List Char) : List Piece → Prop
  | [] => True
  | .text t :: ps => (scan ⟨[], .start⟩ t).mode = .start ∧ Spaced rest ps
  | .name _ :: ps => (renderAll ps ++ rest).head?.any endsName = true ∧ Spaced rest ps
  | .string v :: ps => ('\'' ∉ v ∧ NoNul v) ∧ (renderAll ps ++ rest).head?.any endsString = true ∧ Spaced rest ps
  | .escaped _ :: ps => (renderAll ps ++ rest).head?.any endsString = true ∧ Spaced rest ps

theorem head?_any {p : Char → Bool} {l : List Char} (h : l.head?.any p = true) : ∃ c l', l = c :: l' ∧ p c = true := by
  cases l with
  | nil => cases h
  | cons c l => exact ⟨c, l, rfl, h⟩

/-- A name that has ended is a token. -/
theorem scan_nameEnd {v rest : List Char} (ts : List Token) (hne : v ≠ []) (hrest : rest.head?.any endsName = true) :
    scan ⟨ts, .nameEnd v⟩ rest = scan ⟨ts ++ [.name v], .start⟩ rest := by
  obtain ⟨c, rest, rfl, hc⟩ := head?_any hrest
  simp only [endsName, Bool.and_eq_true, decide_eq_true_eq] at hc
  rw [scan_cons, scan_cons, step_nameEnd, if_neg hc.2, if_neg hc.1, if_neg hne, step_eq _ _ hc.2]
  rfl

theorem scan_stringEnd {v rest : List Char} (ts : List Token) (hrest : rest.head?.any endsString = true) :
    scan ⟨ts, .stringEnd v⟩ rest = scan ⟨ts ++ [.string v], .start⟩ rest := by
  obtain ⟨c, rest, rfl, hc⟩ := head?_any hrest
  simp only [endsString, Bool.and_eq_true, decide_eq_true_eq, Bool.not_eq_true'] at hc
  obtain ⟨⟨⟨hquote, hspace⟩, hdash⟩, hnul⟩ := hc
  have hend : advance ⟨ts, .stringEnd v⟩ c = opened (ts ++ [.string v]) c := by
    simp only [advance, behindString, hquote, hspace, hdash, Bool.false_eq_true, if_false]
  rw [scan_cons, scan_cons, step_eq _ _ hnul, step_eq _ _ hnul, hend]
  rfl

theorem scan_quoted {v rest : List Char} (ts : List Token) (hv : NoNul v) (hrest : rest.head?.any endsString = true) :
    scan ⟨ts, .start⟩ ('\'' :: (escape '\'' v ++ ['\'']) ++ rest) = scan ⟨ts ++ [.string v], .start⟩ rest := by
  rw [List.cons_append, scan_cons, scan_append, scan_append]
  have hescape : scan (step ⟨ts, .start⟩ '\'') (escape '\'' v) = ⟨ts, .string v⟩ := scan_escape ts v [] hv
  rw [hescape]
  exact scan_stringEnd ts hrest

/-- **A value that stays in its quotes is read as itself**, whatever follows. -/
theorem scan_piece {rest : List Char} {p : Piece} {ps : List Piece} (ts : List Token) (hs : Spaced rest (p :: ps))
    (hg : p.Good) : scan ⟨ts, .start⟩ (p.render ++ (renderAll ps ++ rest)) =
      scan ⟨ts ++ p.meant, .start⟩ (renderAll ps ++ rest) ∧ Spaced rest ps := by
  cases p with
  | text t =>
    obtain ⟨ht, hs⟩ := hs
    refine ⟨?_, hs⟩
    rw [Piece.render, scan_append, scan_between ht, Piece.meant]
  | name v =>
    obtain ⟨hrest, hs⟩ := hs
    obtain ⟨hq, hv, hne⟩ := hg
    refine ⟨?_, hs⟩
    have hplain : scan (step ⟨ts, .start⟩ '"') v = ⟨ts, .name v⟩ := scan_plain ts v [] hq hv
    rw [Piece.render, List.cons_append, scan_cons, List.append_assoc, scan_append, hplain]
    exact scan_nameEnd ts hne hrest
  | string v =>
    obtain ⟨⟨hq, hv⟩, hrest, hs⟩ := hs
    have h := scan_quoted ts hv hrest
    rw [escape_of_not_mem hq] at h
    exact ⟨h, hs⟩
  | escaped v => exact ⟨scan_quoted ts hg hs.1, hs.2⟩

/-- **A text of pieces is read as its pieces if no value breaks out of its quotes**, up to what follows. -/
theorem scan_render {rest : List Char} : ∀ (ps : List Piece) (ts : List Token), Spaced rest ps → (∀ p ∈ ps, p.Good) →
    scan ⟨ts, .start⟩ (renderAll ps ++ rest) = scan ⟨ts ++ meantAll ps, .start⟩ rest
  | [], ts, _, _ => by rw [renderAll_nil, List.nil_append, meantAll_nil, List.append_nil]
  | p :: ps, ts, hs, hg => by
    obtain ⟨hp, hg⟩ := List.forall_mem_cons.1 hg
    obtain ⟨hscan, hs⟩ := scan_piece ts hs hp
    have ih := scan_render ps (ts ++ p.meant) hs hg
    rw [renderAll_cons, meantAll_cons, List.append_assoc, hscan, ih, List.append_assoc]

/-- What a text starts with that is read as a value is the value. -/
theorem good_piece {rest : List Char} {p : Piece} {ps : List Piece} (ts tokens : List Token) (hs : Spaced rest (p :: ps))
    (h : finish (scan ⟨ts, .start⟩ (p.render ++ (renderAll ps ++ rest))) = some (ts ++ (p.meant ++ tokens))) : p.Good := by
  cases p with
  | text | string => trivial
  | name v =>
    rw [Piece.render, List.cons_append, scan_cons, List.append_assoc] at h
    have hstart : step ⟨ts, .start⟩ '"' = ⟨ts, .name []⟩ := rfl
    rw [hstart, scan_from, finish_from] at h
    obtain ⟨tokens', hf, heq⟩ := Option.map_eq_some_iff.1 h
    obtain ⟨hv, hne, hpre⟩ := escaped_isPrefix (hf.trans (congrArg some (List.append_cancel_left heq)))
    refine ⟨not_mem_of_isPrefix ?_ v hpre, hv, hne⟩
    obtain ⟨c, l, hl, hc⟩ := head?_any hs.1
    simp only [endsName, Bool.and_eq_true, decide_eq_true_eq] at hc
    rw [hl]
    exact fun hq => hc.1 (Option.some.inj hq)
  | escaped v =>
    refine Decidable.byContradiction (p := NoNul v) (fun hv => ?_)
    rw [Piece.render, List.cons_append, scan_cons, List.append_assoc, scan_append] at h
    have hnul : scan (step ⟨ts, .start⟩ '\'') (escape '\'' v) = ⟨ts, .unknown⟩ := scan_escape_nul ts v [] hv
    rw [hnul, scan_unknown] at h
    cases h

theorem good_of_finish {rest : List Char} (tail : List Token) : ∀ (ps : List Piece) (ts : List Token), Spaced rest ps →
    finish (scan ⟨ts, .start⟩ (renderAll ps ++ rest)) = some (ts ++ (meantAll ps ++ tail)) → ∀ p ∈ ps, p.Good
  | [], _, _, _ => fun _ hp => absurd hp List.not_mem_nil
  | p :: ps, ts, hs, h => by
    rw [renderAll_cons, meantAll_cons, List.append_assoc, List.append_assoc] at h
    have hp := good_piece ts _ hs h
    obtain ⟨hscan, hs'⟩ := scan_piece ts hs hp
    refine List.forall_mem_cons.2 ⟨hp, good_of_finish tail ps (ts ++ p.meant) hs' ?_⟩
    rw [← hscan, h, List.append_assoc]

/-- **A text of pieces is read as its pieces exactly if no value breaks out of its quotes.** -/
theorem lex_render_iff {ps : List Piece} (hs : Spaced [] ps) :
    lex (renderAll ps) = some (meantAll ps) ↔ ∀ p ∈ ps, p.Good := by
  have hnil : lex (renderAll ps) = finish (scan ⟨[], .start⟩ (renderAll ps ++ [])) := by rw [List.append_nil, lex]
  rw [hnil]
  constructor
  · intro h
    refine good_of_finish [] ps [] hs (h.trans ?_)
    rw [List.append_nil, List.nil_append]
  · intro hg
    rw [scan_render ps [] hs hg]
    rfl

/-! ## A text in parentheses -/

/-- Where the scanner is in a comment that a line ends. -/
def Mode.commenting : Mode → Bool
  | .comment | .gapComment _ _ => true
  | _ => false

/-- A parenthesis ends what came before it, but a comment. -/
theorem finish_close {s : Scan} (h : s.mode.commenting = false) :
    finish (step s ')') = (finish s).map (· ++ [.symbol ')']) := by
  obtain ⟨ts, m⟩ := s
  have hopened : ∀ tokens, finish (opened (ts ++ tokens) ')') = some (ts ++ tokens ++ [.symbol ')']) := fun _ => rfl
  cases m with
  | start => rfl
  | word w => exact hopened [.word w]
  | number w => exact hopened [.number w]
  | stringEnd v => exact hopened [.string v]
  | gap v line => exact hopened [.string v]
  | operator w =>
    have hstep : step ⟨ts, .operator w⟩ ')' = opened (ts ++ operators w) ')' := rfl
    rw [hstep]
    exact hopened _
  | gapDash v line =>
    have hstep : step ⟨ts, .gapDash v line⟩ ')' = opened (ts ++ [.string v] ++ operators ['-']) ')' := rfl
    rw [hstep, List.append_assoc]
    exact hopened _
  | dot => exact hopened [.symbol '.']
  | colon => exact hopened [.symbol ':']
  | name | string | unknown => rfl
  | block depth last =>
    have hstep : step ⟨ts, .block depth last⟩ ')' = ⟨ts, .block depth ')'⟩ := by
      rw [step_eq _ _ (by decide)]
      simp only [advance, Char.reduceEq, and_false, if_false]
    rw [hstep]
    rfl
  | nameEnd v =>
    have hstep : step ⟨ts, .nameEnd v⟩ ')' = if v = [] then ⟨ts, .unknown⟩ else opened (ts ++ [.name v]) ')' := rfl
    rw [hstep]
    simp only [finish]
    split_ifs
    · rfl
    · exact hopened [.name v]
  | comment | gapComment => cases h

/-- A comment goes on behind a parenthesis, and nothing else is one behind it. -/
theorem commenting_close (s : Scan) : (step s ')').mode.commenting = s.mode.commenting := by
  obtain ⟨ts, m⟩ := s
  cases m with
  | nameEnd v =>
    rw [step_nameEnd]
    split_ifs <;> rfl
  | block depth last =>
    rw [step_eq _ _ (by decide)]
    simp only [advance, Char.reduceEq, and_false, if_false]
    rfl
  | _ => rfl

/-- **A text in parentheses is read as the text in parentheses**, if it does not end in a comment. -/
theorem lex_wrap {t text : List Char} (ht : (scan ⟨[], .start⟩ t).mode = .start)
    (h : (scan ⟨[], .start⟩ text).mode.commenting = false) :
    lex (t ++ text ++ [')']) =
      (lex text).map (fun tokens => (scan ⟨[], .start⟩ t).tokens ++ tokens ++ [.symbol ')']) := by
  have hmode : (scan ⟨(scan ⟨[], .start⟩ t).tokens, .start⟩ text).mode.commenting = false := by rwa [scan_from]
  rw [lex, scan_append, scan_append, scan_between ht, List.nil_append, scan_cons, scan, List.foldl_nil, finish_close hmode,
    scan_start, Option.map_map]
  rfl

theorem commenting_wrap {t : List Char} (ht : (scan ⟨[], .start⟩ t).mode = .start) (text : List Char) :
    (scan ⟨[], .start⟩ (t ++ text ++ [')'])).mode.commenting = (scan ⟨[], .start⟩ text).mode.commenting := by
  rw [scan_append, scan_append, scan_between ht, scan_cons, scan, List.foldl_nil, commenting_close, scan_from]

/-! ## Words -/

/-- A character that ends the word or the number before it. -/
def apart (c : Char) : Bool := !isWordChar c && c ≠ '\'' && c ≠ '&' && c ≠ '.' && c.toNat ≠ 0

theorem apart_eq_true {c : Char} (h : apart c = true) :
    isWordChar c = false ∧ c ≠ '\'' ∧ c ≠ '&' ∧ c ≠ '.' ∧ c.toNat ≠ 0 := by
  simpa only [apart, Bool.and_eq_true, decide_eq_true_eq, Bool.not_eq_true', ne_eq, and_assoc] using h

theorem isWordChar_ne_zero {c : Char} (h : isWordChar c = true) : c.toNat ≠ 0 := by
  rcases Bool.or_eq_true_iff.1 h with h | h
  · rcases Bool.or_eq_true_iff.1 h with h | h
    · have := isWordStart_bounds h
      omega
    · have := (isDigit_bounds h).1
      omega
  · rw [of_decide_eq_true h]
    decide

theorem isSpace_bounds {c : Char} (h : isSpace c = true) : c.toNat ≤ 32 := by
  have hall : spaces.all (fun c => decide (c.toNat ≤ 32)) = true := rfl
  exact of_decide_eq_true (List.all_eq_true.1 hall c (List.contains_iff_mem.1 h))

/-- A letter or a digit begins a word or a number. -/
theorem opened_above (ts : List Token) {c : Char} (h : 48 ≤ c.toNat) : opened ts c =
    if isWordStart c then ⟨ts, .word [c]⟩ else if c.isDigit then ⟨ts, .number [c]⟩ else opened ts c := by
  have hspace : ¬ isSpace c = true := fun hs => by
    have := isSpace_bounds hs
    omega
  have hquote : c ≠ '\'' := by
    rintro rfl
    exact absurd h (by decide)
  have hname : c ≠ '"' := by
    rintro rfl
    exact absurd h (by decide)
  unfold opened
  rw [if_neg hspace, if_neg hquote, if_neg hname]
  split_ifs <;> rfl

theorem scan_word (ts : List Token) : ∀ (w u : List Char), (∀ c ∈ w, isWordChar c = true) →
    scan ⟨ts, .word u⟩ w = ⟨ts, .word (u ++ w)⟩
  | [], u, _ => by rw [List.append_nil]; rfl
  | c :: w, u, hw => by
    have hc := hw c List.mem_cons_self
    have hstep : advance ⟨ts, .word u⟩ c = ⟨ts, .word (u ++ [c])⟩ := if_pos hc
    have ih := scan_word ts w (u ++ [c]) (fun d hd => hw d (List.mem_cons_of_mem c hd))
    rw [scan_cons, step_eq _ _ (isWordChar_ne_zero hc), hstep, ih, List.append_assoc]
    rfl

theorem step_wordStart (ts : List Token) {c : Char} (h : isWordStart c = true) :
    step ⟨ts, .start⟩ c = ⟨ts, .word [c]⟩ := by
  have hbound := isWordStart_bounds h
  have hopened : advance ⟨ts, .start⟩ c = opened ts c := rfl
  rw [step_eq _ _ (by omega), hopened, opened_above ts (by omega), if_pos h]

/-- A word that starts as one is read as one. -/
theorem finish_word {c : Char} {w rest : List Char} (ts : List Token) (hc : isWordStart c = true)
    (hw : ∀ d ∈ w, isWordChar d = true) (hrest : ∀ d ∈ rest.head?, apart d = true) :
    finish (scan ⟨ts, .start⟩ (c :: w ++ rest)) = finish (scan ⟨ts ++ [.word (c :: w)], .start⟩ rest) := by
  rw [List.cons_append, scan_cons, step_wordStart ts hc, scan_append, scan_word ts w [c] hw]
  cases rest with
  | nil => rfl
  | cons d rest =>
    obtain ⟨hd, hquote, hamp, -, hnul⟩ := apart_eq_true (hrest d rfl)
    have hprefix : isPrefix ([c] ++ w) d = false := by
      simp only [isPrefix, hquote, hamp, decide_false, Bool.false_and, Bool.or_self]
    have hstep : advance ⟨ts, .word ([c] ++ w)⟩ d = opened (ts ++ [.word (c :: w)]) d := by
      simp only [advance, hd, hprefix, Bool.false_eq_true, if_false]
      rfl
    rw [scan_cons, scan_cons, step_eq _ _ hnul, step_eq _ _ hnul, hstep]
    rfl

/-! ## Numbers -/

theorem step_digit (ts : List Token) {c : Char} (h : c.isDigit = true) : step ⟨ts, .start⟩ c = ⟨ts, .number [c]⟩ := by
  have hbound := isDigit_bounds h
  have hopened : advance ⟨ts, .start⟩ c = opened ts c := rfl
  have hword : ¬ isWordStart c = true := Bool.eq_false_iff.1 (not_wordStart_of_digit h)
  rw [step_eq _ _ (by omega), hopened, opened_above ts hbound.1, if_neg hword, if_pos h]

theorem step_number (ts : List Token) (u : List Char) {d : Char} (hd : d.isDigit = true) :
    step ⟨ts, .number u⟩ d = ⟨ts, .number (u ++ [d])⟩ := by
  have hbound := isDigit_bounds hd
  rw [step_eq _ _ (by omega)]
  exact if_pos hd

theorem scan_digits (ts : List Token) : ∀ (ds u : List Char), ds.all Char.isDigit = true →
    scan ⟨ts, .number u⟩ ds = ⟨ts, .number (u ++ ds)⟩
  | [], u, _ => by rw [List.append_nil]; rfl
  | d :: ds, u, h => by
    obtain ⟨hd, hds⟩ := Bool.and_eq_true_iff.1 (List.all_cons ▸ h)
    rw [scan_cons, step_number ts u hd, scan_digits ts ds (u ++ [d]) hds, List.append_assoc]
    rfl

theorem step_numberEnd (ts : List Token) (u : List Char) {d : Char} (hd : apart d = true) :
    step ⟨ts, .number u⟩ d = step ⟨ts ++ [.number u], .start⟩ d := by
  obtain ⟨hword, -, -, hdot, hnul⟩ := apart_eq_true hd
  have hdigit : d.isDigit = false := by
    refine Bool.eq_false_iff.2 (fun h => ?_)
    rw [isWordChar, h, Bool.or_true, Bool.true_or] at hword
    cases hword
  rw [step_eq _ _ hnul, step_eq _ _ hnul]
  simp only [advance, hword, hdigit, hdot, Bool.false_eq_true, if_false]

/-- What may follow the first digit of a numeral: digits, and a point with digits behind it. -/
def isNumeralTail : List Char → Bool
  | [] => true
  | c :: l => if c = '.' then !l.isEmpty && l.all Char.isDigit else c.isDigit && isNumeralTail l

def isNumeral : List Char → Bool
  | [] => false
  | c :: l => c.isDigit && isNumeralTail l

/-- A numeral with its sign, as tokens. -/
def signed : List Char → Option (List Token)
  | [] => none
  | c :: l =>
    if c = '-' then if isNumeral l then some [.operator ['-'], .number l] else none
    else if isNumeral (c :: l) then some [.number (c :: l)] else none

theorem scan_numeralTail (ts : List Token) : ∀ (l u : List Char), '.' ∉ u → isNumeralTail l = true →
    scan ⟨ts, .number u⟩ l = ⟨ts, .number (u ++ l)⟩
  | [], u, _, _ => by rw [List.append_nil]; rfl
  | c :: l, u, hdot, h => by
    rw [isNumeralTail] at h
    split at h
    · rename_i hc
      subst hc
      have hstep : step ⟨ts, .number u⟩ '.' = ⟨ts, .number (u ++ ['.'])⟩ := by
        rw [step_eq _ _ (by decide)]
        exact if_neg hdot
      rw [scan_cons, hstep, scan_digits ts l _ (Bool.and_eq_true_iff.1 h).2, List.append_assoc]
      rfl
    · rename_i hc
      obtain ⟨hd, hl⟩ := Bool.and_eq_true_iff.1 h
      have hdot' : '.' ∉ u ++ [c] := fun hm =>
        (List.mem_append.1 hm).elim hdot (fun hm => hc (List.mem_singleton.1 hm).symm)
      rw [scan_cons, step_number ts u hd, scan_numeralTail ts l (u ++ [c]) hdot' hl, List.append_assoc]
      rfl

theorem scan_numeral (ts : List Token) {l rest : List Char} (h : isNumeral l = true)
    (hrest : rest.head?.any apart = true) : scan ⟨ts, .start⟩ (l ++ rest) = scan ⟨ts ++ [.number l], .start⟩ rest := by
  cases l with
  | nil => cases h
  | cons d l =>
    obtain ⟨hd, hl⟩ := Bool.and_eq_true_iff.1 h
    have hdot : '.' ∉ [d] := fun hm => by
      rw [← List.mem_singleton.1 hm] at hd
      exact absurd hd (by decide)
    obtain ⟨c, rest, rfl, hc⟩ := head?_any hrest
    rw [List.cons_append, scan_cons, step_digit ts hd, scan_append, scan_numeralTail ts l [d] hdot hl, scan_cons, scan_cons,
      step_numberEnd ts _ hc]
    rfl

theorem step_negative (ts : List Token) {d : Char} (hd : d.isDigit = true) :
    step ⟨ts, .operator ['-']⟩ d = step ⟨ts ++ [.operator ['-']], .start⟩ d := by
  have hbound := isDigit_bounds hd
  have hall : operatorChars.all (fun c => !c.isDigit) = true := rfl
  have hop : ¬ isOperator d = true := fun hop => by
    have hdigit := List.all_eq_true.1 hall d (List.contains_iff_mem.1 hop)
    rw [hd] at hdigit
    cases hdigit
  have hdash : d ≠ '-' := by
    rintro rfl
    exact absurd hd (by decide)
  have hstep : advance ⟨ts, .operator ['-']⟩ d = opened (ts ++ operators ['-']) d := by
    show behindOperator ts ['-'] d = _
    rw [behindOperator, if_neg (fun h => hdash h.1), if_neg (fun h => absurd h.2 (by decide)), if_neg hop]
  rw [step_eq _ _ (by omega), step_eq _ _ (by omega), hstep]
  rfl

/-- **A numeral is read as one**, a negative one behind its sign. -/
theorem scan_signed (ts : List Token) {l rest : List Char} {tokens : List Token} (h : signed l = some tokens)
    (hrest : rest.head?.any apart = true) : scan ⟨ts, .start⟩ (l ++ rest) = scan ⟨ts ++ tokens, .start⟩ rest := by
  cases l with
  | nil => cases h
  | cons c l =>
    rw [signed] at h
    split at h
    · rename_i hc
      subst hc
      split at h
      · rename_i hnum
        obtain rfl := Option.some.inj h
        have hread := scan_numeral (ts ++ [.operator ['-']]) hnum hrest
        cases l with
        | nil => cases hnum
        | cons d l =>
          have hdash : step ⟨ts, .start⟩ '-' = ⟨ts, .operator ['-']⟩ := rfl
          rw [List.append_assoc, List.cons_append, scan_cons] at hread
          rw [List.cons_append, List.cons_append, scan_cons, scan_cons, hdash,
            step_negative ts (Bool.and_eq_true_iff.1 hnum).1, hread]
          rfl
      · cases h
    · split at h
      · rename_i hnum
        obtain rfl := Option.some.inj h
        exact scan_numeral ts hnum hrest
      · cases h

/-! ## Lists of words -/

theorem scan_number (ts : List Token) : ∀ (w u : List Char), (∀ c ∈ w, isWordChar c = true) →
    scan ⟨ts, .number u⟩ w = ⟨ts, .number (u ++ w)⟩ ∨ scan ⟨ts, .number u⟩ w = ⟨ts, .unknown⟩
  | [], u, _ => .inl (by rw [List.append_nil]; rfl)
  | c :: w, u, hw => by
    have hc := hw c List.mem_cons_self
    rw [scan_cons]
    by_cases hd : c.isDigit = true
    · have ih := scan_number ts w (u ++ [c]) (fun d hd => hw d (List.mem_cons_of_mem c hd))
      rw [List.append_assoc] at ih
      rw [step_number ts u hd]
      exact ih
    · have hstep : advance ⟨ts, .number u⟩ c = ⟨ts, .unknown⟩ := (if_neg hd).trans (if_pos hc)
      rw [step_eq _ _ (isWordChar_ne_zero hc), hstep, scan_unknown]
      exact .inr rfl

/-- A word that starts with a digit, or with a dollar sign, is not read as one. -/
theorem finish_not_word {c : Char} {w rest u : List Char} (ts tokens : List Token) (hc : isWordChar c = true)
    (hstart : isWordStart c = false) (hw : ∀ d ∈ w, isWordChar d = true) (hrest : ∀ d ∈ rest.head?, apart d = true) :
    finish (scan ⟨ts, .start⟩ (c :: w ++ rest)) ≠ some (ts ++ .word u :: tokens) := by
  have hnumber : ∀ v : List Char, finish (scan ⟨ts ++ [.number v], .start⟩ rest) ≠ some (ts ++ .word u :: tokens) := by
    intro v hv
    rw [scan_start] at hv
    obtain ⟨tokens', -, heq⟩ := Option.map_eq_some_iff.1 hv
    rw [List.append_assoc] at heq
    have hhead := (List.cons.inj (List.append_cancel_left heq)).1
    cases hhead
  rw [isWordChar, hstart, Bool.false_or] at hc
  rcases Bool.or_eq_true_iff.1 hc with hd | hd
  · rw [List.cons_append, scan_cons, step_digit ts hd, scan_append]
    rcases scan_number ts w [c] hw with hs | hs
    · rw [hs]
      cases rest with
      | nil => exact hnumber ([c] ++ w)
      | cons d rest =>
        rw [scan_cons, step_numberEnd ts _ (hrest d rfl)]
        exact hnumber ([c] ++ w)
    · rw [hs, scan_unknown]
      exact fun h => by cases h
  · have hdollar : step ⟨ts, .start⟩ c = ⟨ts, .unknown⟩ := by
      rw [of_decide_eq_true hd]
      rfl
    rw [List.cons_append, scan_cons, hdollar, scan_unknown]
    exact fun h => by cases h

/-- Words, each with what stands behind it. -/
def phraseText (l : List (List Char × List Char)) : List Char := l.flatMap (fun p => p.1 ++ p.2)

def phraseTokens (l : List (List Char × List Char)) : List Token :=
  l.flatMap (fun p => .word p.1 :: (scan ⟨[], .start⟩ p.2).tokens)

/-- The words are made of word characters, and what stands behind one does not belong to it. -/
def Phrased : List (List Char × List Char) → Prop
  | [] => True
  | p :: l => p.1 ≠ [] ∧ (∀ c ∈ p.1, isWordChar c = true) ∧ (∀ d ∈ (p.2 ++ phraseText l).head?, apart d = true) ∧
      (scan ⟨[], .start⟩ p.2).mode = .start ∧ Phrased l

theorem finish_phrase_iff : ∀ (l : List (List Char × List Char)) (ts : List Token), Phrased l →
    (finish (scan ⟨ts, .start⟩ (phraseText l)) = some (ts ++ phraseTokens l) ↔
      ∀ p ∈ l, ∀ c ∈ p.1.head?, isWordStart c = true)
  | [], ts, _ => iff_of_true (congrArg some (List.append_nil ts).symm) (fun p hp => absurd hp List.not_mem_nil)
  | ([], sep) :: _, _, h => absurd rfl h.1
  | (c :: w, sep) :: l, ts, ⟨_, hw, hrest, hsep, hl⟩ => by
    have ih := finish_phrase_iff l (ts ++ [.word (c :: w)] ++ (scan ⟨[], .start⟩ sep).tokens) hl
    have htail : ∀ d ∈ w, isWordChar d = true := fun d hd => hw d (List.mem_cons_of_mem c hd)
    show finish (scan _ (c :: w ++ sep ++ phraseText l)) =
      some (ts ++ (.word (c :: w) :: (scan ⟨[], .start⟩ sep).tokens ++ phraseTokens l)) ↔ _
    rw [List.append_assoc, List.forall_mem_cons]
    by_cases hc : isWordStart c = true
    · rw [finish_word ts hc htail hrest, scan_append, scan_between hsep]
      have hhead : ∀ d ∈ (c :: w).head?, isWordStart d = true := fun d hd => Option.some.inj hd ▸ hc
      rw [and_iff_right hhead, ← ih, List.append_assoc, List.append_assoc]
      rfl
    · refine iff_of_false ?_ (fun h => hc (h.1 c rfl))
      exact finish_not_word ts _ (hw c List.mem_cons_self) (Bool.eq_false_iff.2 hc) htail hrest

/-- **Words and what stands between them are read as such exactly if each word starts as one.** -/
theorem lex_phrase_iff {l : List (List Char × List Char)} (h : Phrased l) :
    lex (phraseText l) = some (phraseTokens l) ↔ ∀ p ∈ l, ∀ c ∈ p.1.head?, isWordStart c = true := by
  rw [← finish_phrase_iff l [] h]
  rfl

end SqlText
