import ZeroDowntime.Arrivals
/-!
# Wrapping — words laid out on lines of limited length

Lines are filled with the characters of a list of words, in order, and with blanks.  Where the text breaks after a line
is read from how many characters that are not blank stand up to there (`place`); a greedy layout breaks only where it has
to (`MayBreak`).  `Laid` is what holds while a layout is made, with one rule for each thing that can be done next.
-/
namespace Wrapping

variable {α : Type}

/-- Where in a list of words a number of characters ends. -/
inductive Place (α : Type)
  | beyond
  | between (next : List α)
  | inside (head tail : List α)
  deriving DecidableEq, Repr

def place : List (List α) → Nat → Place α
  | [], _ => .beyond
  | word :: words, n =>
    if n = 0 then .between word
    else if n < word.length then .inside (word.take n) (word.drop n)
    else place words (n - word.length)

/-- A line ends before a word that, with a blank, does not fit on it, or inside a word that takes all of it. -/
def MayBreak (limit : Nat) (line : List α) : Place α → Prop
  | .beyond => False
  | .between next => limit < line.length + 1 + next.length
  | .inside head _ => line.length = limit ∧ line <:+ head

variable (blank : α → Bool)

/-- What is not blank. -/
def solid (text : List α) : List α := text.filter (fun c => !blank c)

/-- Where the text breaks after the line of this index. -/
def breakAfter (words lines : List (List α)) (i : Nat) : Place α :=
  place words (solid blank (lines.take (i + 1)).flatten).length

/-- **A greedy layout**: bounded, lossless, without empty lines, broken only where it has to be. -/
structure Wrapped (limit : Nat → Nat) (words lines : List (List α)) : Prop where
  bounded : ∀ i line, lines[i]? = some line → line.length ≤ limit i
  lossless : solid blank lines.flatten = words.flatten
  nonempty : [] ∉ lines
  greedy : ∀ i line next, lines[i]? = some line → lines[i + 1]? = some next →
    MayBreak (limit i) line (breakAfter blank words lines i)

/-- The words `done` and the characters `used` of the next one are laid out, on lines that are broken and on one that is
not, which has room only for whole words. -/
structure Laid (limit : Nat → Nat) (words out : List (List α)) (cur : List α) (done : List (List α)) (used : List α) :
    Prop where
  bounded : ∀ i line, out[i]? = some line → line.length ≤ limit i
  room : cur.length ≤ limit out.length
  lossless : solid blank (out.flatten ++ cur) = done.flatten ++ used
  nonempty : [] ∉ out
  greedy : ∀ i line, out[i]? = some line → MayBreak (limit i) line (breakAfter blank words out i)
  whole : cur ≠ [] → used = []

/-! ## Places -/

theorem place_append (words : List (List α)) (n : Nat) : ∀ done : List (List α), (∀ word ∈ done, word ≠ []) →
    place (done ++ words) (done.flatten.length + n) = place words n
  | [], _ => by rw [List.nil_append, List.flatten_nil, List.length_nil, Nat.zero_add]
  | word :: done, h => by
    have hword : 0 < word.length := List.length_pos_iff.2 (h word List.mem_cons_self)
    have ih := place_append words n done (fun v hv => h v (List.mem_cons_of_mem _ hv))
    rw [List.cons_append, List.flatten_cons, List.length_append, place, if_neg (by omega), if_neg (by omega), ← ih]
    congr 1
    omega

theorem place_between (done later : List (List α)) (word : List α) (h : ∀ v ∈ done, v ≠ []) :
    place (done ++ word :: later) done.flatten.length = .between word := by
  have hplace := place_append (word :: later) 0 done h
  rw [Nat.add_zero] at hplace
  rw [hplace, place, if_pos rfl]

theorem place_inside (done later : List (List α)) (head tail : List α) (h : ∀ v ∈ done, v ≠ []) (hhead : head ≠ [])
    (htail : tail ≠ []) : place (done ++ (head ++ tail) :: later) (done.flatten ++ head).length = .inside head tail := by
  have hpos := List.length_pos_iff.2 hhead
  have hlt : head.length < (head ++ tail).length := by
    rw [List.length_append]
    exact Nat.lt_add_of_pos_right (List.length_pos_iff.2 htail)
  rw [List.length_append, place_append _ _ done h, place, if_neg (by omega), if_pos hlt, List.take_left, List.drop_left]

/-! ## Lines -/

variable {blank} {limit : Nat → Nat} {words out done : List (List α)} {cur used : List α}

theorem solid_append (s t : List α) : solid blank (s ++ t) = solid blank s ++ solid blank t := List.filter_append s t

theorem solid_of_forall {s : List α} (h : ∀ c ∈ s, blank c = false) : solid blank s = s :=
  List.filter_eq_self.2 (fun c hc => by rw [h c hc]; rfl)

theorem breakAfter_append (lines : List (List α)) (i : Nat) (h : i < out.length) :
    breakAfter blank words (out ++ lines) i = breakAfter blank words out i := by
  rw [breakAfter, breakAfter, List.take_append_of_le_length h]

namespace Laid

theorem start : Laid blank limit words [] [] [] [] where
  bounded := fun _ _ h => by cases h
  room := Nat.zero_le _
  lossless := rfl
  nonempty := List.not_mem_nil
  greedy := fun _ _ h => by cases h
  whole := fun h => absurd rfl h

/-- The word, or what is left of it, goes on the line. -/
theorem append (h : Laid blank limit words out cur done used) (gap : List α) {word : List α}
    (hword : ∀ c ∈ word, blank c = false) (hgap : ∀ c ∈ gap, blank c = true)
    (hfit : cur.length + gap.length + word.length ≤ limit out.length) :
    Laid blank limit words out (cur ++ gap ++ word) (done ++ [used ++ word]) [] where
  bounded := h.bounded
  room := by
    rw [List.length_append, List.length_append]
    exact hfit
  lossless := by
    have hnone : solid blank gap = [] := List.filter_eq_nil_iff.2 (fun c hc => by rw [hgap c hc]; decide)
    rw [← List.append_assoc, ← List.append_assoc, solid_append, solid_append, h.lossless, hnone, solid_of_forall hword,
      List.flatten_append, List.flatten_singleton]
    simp
  nonempty := h.nonempty
  greedy := h.greedy
  whole := fun _ => rfl

/-- Any line may be broken off that ends where a greedy layout may break. -/
theorem broken (h : Laid blank limit words out cur done used) {line : List α} {used' : List α} (hne : line ≠ [])
    (hroom : line.length ≤ limit out.length) (hsolid : solid blank (out.flatten ++ line) = done.flatten ++ used')
    (hbreak : MayBreak (limit out.length) line (place words (done.flatten ++ used').length)) :
    Laid blank limit words (out ++ [line]) [] done used' where
  bounded := by
    intro i found hfound
    rcases Arrivals.of_concat hfound with hfound | ⟨rfl, rfl⟩
    · exact h.bounded i found hfound
    · exact hroom
  room := Nat.zero_le _
  lossless := by rw [List.flatten_append, List.flatten_singleton, List.append_nil, hsolid]
  nonempty := by
    rw [List.mem_append, List.mem_singleton]
    rintro (hmem | rfl)
    · exact h.nonempty hmem
    · exact hne rfl
  greedy := by
    intro i found hfound
    rcases Arrivals.of_concat hfound with hfound | ⟨rfl, rfl⟩
    · rw [breakAfter_append _ _ (List.getElem?_eq_some_iff.1 hfound).1]
      exact h.greedy i found hfound
    · have htake : (out ++ [found]).take (out.length + 1) = out ++ [found] := List.take_of_length_le (by simp)
      rw [breakAfter, htake, List.flatten_append, List.flatten_singleton, hsolid]
      exact hbreak
  whole := fun hcur => absurd rfl hcur

/-- The line is broken before a word that does not fit on it. -/
theorem flush (h : Laid blank limit words out cur done []) {word : List α} {later : List (List α)}
    (hwords : words = done ++ word :: later) (hne : ∀ v ∈ words, v ≠ []) (hcur : cur ≠ [])
    (hfull : limit out.length < cur.length + 1 + word.length) : Laid blank limit words (out ++ [cur]) [] done [] := by
  refine h.broken hcur h.room h.lossless ?_
  have hdone : ∀ v ∈ done, v ≠ [] := fun v hv => hne v (by rw [hwords]; exact List.mem_append_left _ hv)
  rw [List.append_nil, hwords, place_between done later word hdone]
  exact hfull

/-- A word that does not fit on a line of its own takes all of it. -/
theorem split (h : Laid blank limit words out [] done used) {head tail : List α} {later : List (List α)}
    (hwords : words = done ++ (used ++ (head ++ tail)) :: later) (hne : ∀ v ∈ words, v ≠ []) (hhead : head ≠ [])
    (htail : tail ≠ []) (hblank : ∀ c ∈ head, blank c = false) (hlen : head.length = limit out.length) :
    Laid blank limit words (out ++ [head]) [] done (used ++ head) := by
  have hlossless := h.lossless
  rw [List.append_nil] at hlossless
  refine h.broken hhead (Nat.le_of_eq hlen) ?_ ?_
  · rw [solid_append, hlossless, solid_of_forall hblank, List.append_assoc]
  · have hdone : ∀ v ∈ done, v ≠ [] := fun v hv => hne v (by rw [hwords]; exact List.mem_append_left _ hv)
    have husedhead : used ++ head ≠ [] := fun hnil => hhead (List.append_eq_nil_iff.1 hnil).2
    rw [hwords, ← List.append_assoc used, place_inside done later (used ++ head) tail hdone husedhead htail]
    exact ⟨hlen, List.suffix_append used head⟩

/-- When all words are laid out, the last line is not broken but ends. -/
theorem finish (h : Laid blank limit words out cur words []) (hcur : cur ≠ []) :
    Wrapped blank limit words (out ++ [cur]) where
  bounded := by
    intro i line hline
    rcases Arrivals.of_concat hline with hline | ⟨rfl, rfl⟩
    · exact h.bounded i line hline
    · exact h.room
  lossless := by rw [List.flatten_append, List.flatten_singleton, h.lossless, List.append_nil]
  nonempty := by
    rw [List.mem_append, List.mem_singleton]
    rintro (hmem | hnil)
    · exact h.nonempty hmem
    · exact hcur hnil.symm
  greedy := by
    intro i line next hline hnext
    have hi : i < out.length := by
      have := (List.getElem?_eq_some_iff.1 hnext).1
      rw [List.length_append, List.length_singleton] at this
      omega
    rw [breakAfter_append _ _ hi]
    rw [List.getElem?_append_left hi] at hline
    exact h.greedy i line hline

end Laid
end Wrapping
