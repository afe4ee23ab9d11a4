import ZeroDowntime.LogPane
import ZeroDowntime.Wrapping
/-!
# LogWrap — how the text of an entry is wrapped

The words of a text are laid out greedily: each of the three things the inner loop of `wrap_text` does is a rule of
`Wrapping.Laid`.
-/
namespace ZeroDowntime
namespace LogTui

open Wrapping (Laid Wrapped MayBreak breakAfter)

theorem solid_of_mem_splitWhitespace {text word : List Char} (h : word ∈ splitWhitespace text) :
    ∀ c ∈ word, isWhitespace c = false := by
  intro c hc
  have hmem : c ∈ (splitWhitespace text).flatten := List.mem_flatten.2 ⟨word, h, hc⟩
  rw [flatten_splitWhitespace] at hmem
  simpa using (List.mem_filter.1 hmem).2

/-- **A word is laid out**, on the current line or on as many as it takes. -/
theorem laid_placeWord (w : Widths) (words done later : List (List Char)) (hne : ∀ v ∈ words, v ≠ [])
    (hsolid : ∀ v ∈ words, ∀ c ∈ v, isWhitespace c = false) (out : List (List Char)) (cur word used : List Char)
    (hwords : words = done ++ (used ++ word) :: later) (hword : word ≠ [])
    (h : Laid isWhitespace w.limitFor words out cur done used) :
    Laid isWhitespace w.limitFor words (placeWord w out cur word).1 (placeWord w out cur word).2
      (done ++ [used ++ word]) [] ∧ (placeWord w out cur word).2 ≠ [] := by
  have hmem : used ++ word ∈ words := by
    rw [hwords]
    exact List.mem_append_right _ List.mem_cons_self
  have hchars : ∀ c ∈ word, isWhitespace c = false := fun c hc => hsolid _ hmem c (List.mem_append_right _ hc)
  fun_induction placeWord w out cur word generalizing used with
  | case1 out cur word limit sep hfit =>
    cases cur with
    | nil => exact ⟨h.append [] hchars (fun _ hc => by cases hc) hfit, hword⟩
    | cons c cur =>
      have hgap : ∀ c ∈ [' '], isWhitespace c = true := List.forall_mem_singleton.2 rfl
      exact ⟨h.append [' '] hchars hgap hfit, by simp⟩
  | case2 out cur word limit sep hfit hcur rest hrest =>
    -- what is left of a word that did not fit is not empty
    obtain rfl := List.isEmpty_iff.1 hcur
    have hlen : rest.length = word.length - limit := List.length_drop
    rw [List.isEmpty_iff.1 hrest, List.length_nil] at hlen
    have hsep : sep = 0 := rfl
    rw [hsep, List.length_nil] at hfit
    omega
  | case3 out cur word limit sep hfit hcur rest hrest ih =>
    obtain rfl := List.isEmpty_iff.1 hcur
    have hsplit : word.take limit ++ rest = word := List.take_append_drop limit word
    have hlimit := w.limitFor_pos out.length
    have hsep : sep = 0 := rfl
    rw [hsep, List.length_nil] at hfit
    have hlen : (word.take limit).length = limit := List.length_take_of_le (by omega)
    have hhead : word.take limit ≠ [] := List.length_pos_iff.1 (by omega)
    have htail : rest ≠ [] := fun hnil => hrest (List.isEmpty_iff.2 hnil)
    have hparts : words = done ++ (used ++ (word.take limit ++ rest)) :: later := by
      rw [hsplit]
      exact hwords
    have hstep := h.split hparts hne hhead htail (fun c hc => hchars c (List.mem_of_mem_take hc)) hlen
    have hused : used ++ word = used ++ word.take limit ++ rest := by rw [List.append_assoc, hsplit]
    rw [hused] at hwords hmem ⊢
    exact ih (used ++ word.take limit) hwords htail hstep hmem (fun c hc => hchars c (List.mem_of_mem_drop hc))
  | case4 out cur word limit sep hfit hcur ih =>
    have hcur' : cur ≠ [] := fun hnil => hcur (List.isEmpty_iff.2 hnil)
    obtain rfl := h.whole hcur'
    have hsep : sep = 1 := by
      have : cur.isEmpty = false := Bool.eq_false_iff.2 hcur
      show (!cur.isEmpty).toNat = 1
      rw [this]
      rfl
    rw [hsep] at hfit
    exact ih [] hwords hword (h.flush hwords hne hcur' (Nat.lt_of_not_le hfit)) hmem hchars

/-- **All words are laid out.** -/
theorem laid_foldl (w : Widths) (words : List (List Char)) (hne : ∀ v ∈ words, v ≠ [])
    (hsolid : ∀ v ∈ words, ∀ c ∈ v, isWhitespace c = false) : ∀ (later done : List (List Char))
    (s : List (List Char) × List Char), words = done ++ later → Laid isWhitespace w.limitFor words s.1 s.2 done [] →
      (done ≠ [] → s.2 ≠ []) →
      let placed := later.foldl (fun s word => placeWord w s.1 s.2 word) s
      Laid isWhitespace w.limitFor words placed.1 placed.2 words [] ∧ (words ≠ [] → placed.2 ≠ [])
  | [], done, s, hwords, h, hcur => by
    rw [List.append_nil] at hwords
    obtain rfl := hwords
    exact ⟨h, hcur⟩
  | word :: later, done, s, hwords, h, _ => by
    have hword : word ≠ [] := hne word (by rw [hwords]; exact List.mem_append_right _ List.mem_cons_self)
    obtain ⟨hplaced, hcur⟩ := laid_placeWord w words done later hne hsolid s.1 s.2 word [] hwords hword h
    exact laid_foldl w words hne hsolid later (done ++ [word]) _ (by rw [hwords, List.append_assoc]; rfl) hplaced
      (fun _ => hcur)

/-- The lines of a text with words are a greedy layout of them. -/
theorem wrapped_wrapText (text : List Char) (firstWidth contWidth : Nat) (hwords : splitWhitespace text ≠ []) :
    Wrapped isWhitespace (Widths.of firstWidth contWidth).limitFor (splitWhitespace text)
      (wrapText text firstWidth contWidth) := by
  obtain ⟨hlaid, hcur⟩ := laid_foldl (.of firstWidth contWidth) (splitWhitespace text)
    (fun _ => ne_nil_of_mem_splitWhitespace) (fun _ => solid_of_mem_splitWhitespace) (splitWhitespace text) [] ([], [])
    rfl Laid.start (fun h => absurd rfl h)
  have hne := hcur hwords
  rw [wrapText]
  generalize (splitWhitespace text).foldl _ ([], []) = placed at hlaid hne
  have hnonempty : (!placed.2.isEmpty || placed.1.isEmpty) = true := by
    rw [Bool.eq_false_iff.2 (fun h => hne (List.isEmpty_iff.1 h))]
    rfl
  rw [if_pos hnonempty]
  exact hlaid.finish hne

theorem wrapText_of_no_words (text : List Char) (firstWidth contWidth : Nat) (h : splitWhitespace text = []) :
    wrapText text firstWidth contWidth = [[]] := by
  rw [wrapText, h]
  rfl

/-- **Word wrapping is greedy, bounded and lossless.**  Each line keeps to its width; the lines have the characters of
the text that are not whitespace, in order; only a text without words makes an empty line, its single one; a line ends
before a word that, with a space, has no room on it, or inside a word of which it is full. -/
theorem wrap_text_greedy (text : List Char) (firstWidth contWidth : Nat) :
    let words := splitWhitespace text
    let lines := wrapText text firstWidth contWidth
    let limit (i : Nat) := if i = 0 then max firstWidth 1 else max contWidth 1
    (∀ i line, lines[i]? = some line → line.length ≤ limit i) ∧
      lines.flatten.filter (fun c => !isWhitespace c) = text.filter (fun c => !isWhitespace c) ∧
      (words = [] → lines = [[]]) ∧ (words ≠ [] → [] ∉ lines) ∧
      ∀ i line next, lines[i]? = some line → lines[i + 1]? = some next →
        match breakAfter isWhitespace words lines i with
        | .beyond => False
        | .between word => limit i < line.length + 1 + word.length
        | .inside head _ => line.length = limit i ∧ line <:+ head := by
  intro words lines limit
  by_cases hwords : words = []
  · have hlines : lines = [[]] := wrapText_of_no_words text firstWidth contWidth hwords
    have htext := flatten_splitWhitespace text
    rw [show splitWhitespace text = [] from hwords, List.flatten_nil] at htext
    rw [hlines, ← htext]
    refine ⟨fun i line hline => ?_, rfl, fun _ => rfl, fun h => absurd hwords h, fun i line next _ hnext => ?_⟩
    · rw [List.mem_singleton.1 (List.mem_of_getElem? hline)]
      exact Nat.zero_le _
    · cases hnext
  · have h : Wrapped isWhitespace limit words lines := wrapped_wrapText text firstWidth contWidth hwords
    refine ⟨h.bounded, ?_, fun hnil => absurd hnil hwords, fun _ => h.nonempty, fun i line next hline hnext => ?_⟩
    · exact h.lossless.trans (flatten_splitWhitespace text)
    · have hbreak := h.greedy i line next hline hnext
      revert hbreak
      cases breakAfter isWhitespace words lines i <;> exact id

end LogTui
end ZeroDowntime
