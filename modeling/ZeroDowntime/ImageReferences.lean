import ZeroDowntime.AppActions
/-!
# ImageReferences — what is left of an image reference once it is cut

A reference reads `[host[:port]/]path[:tag][@digest]`.  The key of the iterator is the text before the first `:`, which is
not the one before the tag if the host has a port; and where a digest stands without a tag, the cut leaves `@` and its
algorithm in the key and in the container name.
-/
namespace ZeroDowntime
namespace Apps

open Lifecycle (Error)

/-! ## The grammar -/

/-- A part of a reference, free of separators. -/
structure Piece where
  text : List Char
  nonempty : text ≠ []
  plain : ∀ c ∈ text, c ≠ '/' ∧ c ≠ ':' ∧ c ≠ '@'
  deriving DecidableEq

structure Registry where
  host : Piece
  port : Option Piece
  deriving DecidableEq

/-- A digest is an algorithm and an encoded hash, with a `:` in between. -/
structure Digest where
  algorithm : Piece
  encoded : Piece
  deriving DecidableEq

/-- `path` is the components before the last one, `name`. -/
structure ImageReference where
  registry : Option Registry
  path : List Piece
  name : Piece
  tag : Option Piece
  digest : Option Digest
  deriving DecidableEq

namespace ImageReference

def portText : Option Piece → List Char
  | none => []
  | some p => ':' :: p.text

def registryText : Option Registry → List Char
  | none => []
  | some g => g.host.text ++ portText g.port ++ ['/']

def pathText (path : List Piece) : List Char := path.flatMap (fun c => c.text ++ ['/'])

/-- What stands before the last component. -/
def directory (r : ImageReference) : List Char := registryText r.registry ++ pathText r.path

def tagText : Option Piece → List Char
  | none => []
  | some t => ':' :: t.text

def digestText : Option Digest → List Char
  | none => []
  | some d => '@' :: d.algorithm.text ++ ':' :: d.encoded.text

/-- `[host[:port]/]path` -/
def repositoryText (r : ImageReference) : List Char := r.directory ++ r.name.text

def text (r : ImageReference) : List Char := r.repositoryText ++ tagText r.tag ++ digestText r.digest

/-- The host, where it has a port. -/
def portedHost (r : ImageReference) : Option Piece :=
  match r.registry with
  | some ⟨host, some _⟩ => some host
  | _ => none

/-- What a cut at the first `:` after the repository leaves of tag and digest. -/
def leftover (r : ImageReference) : List Char :=
  match r.tag, r.digest with
  | none, some d => '@' :: d.algorithm.text
  | _, _ => []

end ImageReference

open ImageReference

/-! ## The cuts -/

theorem Piece.slash_not_mem (p : Piece) : '/' ∉ p.text := fun h => (p.plain _ h).1 rfl

theorem Piece.colon_not_mem (p : Piece) : ':' ∉ p.text := fun h => (p.plain _ h).2.1 rfl

theorem Piece.at_not_mem (p : Piece) : '@' ∉ p.text := fun h => (p.plain _ h).2.2 rfl

/-- A cut reads over what does not hold the separator. -/
theorem takeWhile_append_of_not_mem {c : Char} {s : List Char} (h : c ∉ s) (l : List Char) :
    (s ++ l).takeWhile (fun d => decide (d ≠ c)) = s ++ l.takeWhile (fun d => decide (d ≠ c)) :=
  List.takeWhile_append_of_pos (fun _ hd => decide_eq_true (fun he => h (he ▸ hd)))

theorem takeWhile_stop (c : Char) (l : List Char) : (c :: l).takeWhile (fun d => decide (d ≠ c)) = [] :=
  List.takeWhile_cons_of_neg (by simp)

/-- The last component, cut off from behind. -/
theorem lastComponent_append {c : Char} {l : List Char} (h : c ∉ l) {pre : List Char}
    (hpre : pre = [] ∨ ∃ d, pre = d ++ [c]) :
    ((pre ++ l).reverse.takeWhile (fun d => decide (d ≠ c))).reverse = l := by
  rw [List.reverse_append, takeWhile_append_of_not_mem (mt List.mem_reverse.1 h)]
  have hstop : pre.reverse.takeWhile (fun d => decide (d ≠ c)) = [] := by
    rcases hpre with rfl | ⟨d, rfl⟩
    · rfl
    · rw [List.reverse_append, List.reverse_singleton, List.singleton_append, takeWhile_stop]
  rw [hstop, List.append_nil, List.reverse_reverse]

variable {r s : ImageReference}

theorem takeWhile_tagged (r : ImageReference) :
    (tagText r.tag ++ digestText r.digest).takeWhile (fun d => decide (d ≠ ':')) = r.leftover := by
  unfold leftover
  cases r.tag with
  | some t => exact takeWhile_stop ':' _
  | none =>
    cases r.digest with
    | none => rfl
    | some d =>
      have hno : ':' ∉ '@' :: d.algorithm.text := by
        rw [List.mem_cons, not_or]
        exact ⟨by decide, d.algorithm.colon_not_mem⟩
      show ('@' :: d.algorithm.text ++ ':' :: d.encoded.text).takeWhile _ = _
      rw [takeWhile_append_of_not_mem hno, takeWhile_stop, List.append_nil]

theorem at_not_mem_repositoryText (r : ImageReference) : '@' ∉ r.repositoryText := by
  have hport : ∀ p, '@' ∉ portText p := fun p => by
    cases p with
    | none => exact List.not_mem_nil
    | some p =>
      rw [portText, List.mem_cons, not_or]
      exact ⟨by decide, p.at_not_mem⟩
  have hregistry : '@' ∉ registryText r.registry := by
    cases r.registry with
    | none => exact List.not_mem_nil
    | some g =>
      rw [registryText, List.mem_append, List.mem_append, List.mem_singleton]
      rintro ((h | h) | h)
      · exact g.host.at_not_mem h
      · exact hport _ h
      · exact absurd h (by decide)
  unfold repositoryText directory pathText
  rw [List.mem_append, List.mem_append, List.mem_flatMap]
  rintro ((h | ⟨c, -, h⟩) | h)
  · exact hregistry h
  · rcases List.mem_append.1 h with h | h
    · exact c.at_not_mem h
    · exact absurd (List.mem_singleton.1 h) (by decide)
  · exact r.name.at_not_mem h

theorem colon_not_mem_repositoryText (h : r.portedHost = none) : ':' ∉ r.repositoryText := by
  have hregistry : ':' ∉ registryText r.registry := by
    unfold portedHost at h
    rcases hg : r.registry with _ | ⟨host, _ | port⟩
    · exact List.not_mem_nil
    · simp only [registryText, portText, List.append_nil]
      rw [List.mem_append, List.mem_singleton]
      rintro (h' | h')
      · exact host.colon_not_mem h'
      · exact absurd h' (by decide)
    · rw [hg] at h
      cases h
  unfold repositoryText directory pathText
  rw [List.mem_append, List.mem_append, List.mem_flatMap]
  rintro ((h | ⟨c, -, h⟩) | h)
  · exact hregistry h
  · rcases List.mem_append.1 h with h | h
    · exact c.colon_not_mem h
    · exact absurd (List.mem_singleton.1 h) (by decide)
  · exact r.name.colon_not_mem h

/-- **Without a port the key is the repository, and what the cut leaves of a digest.** -/
theorem stripTag_text (h : r.portedHost = none) : stripTag r.text = r.repositoryText ++ r.leftover := by
  unfold stripTag text
  rw [List.append_assoc, takeWhile_append_of_not_mem (colon_not_mem_repositoryText h), takeWhile_tagged]

/-- The repository of a reference with a port begins with the host and a `:`. -/
theorem repositoryText_of_port {host : Piece} (h : r.portedHost = some host) :
    ∃ rest, r.repositoryText = host.text ++ ':' :: rest := by
  unfold portedHost at h
  rcases hg : r.registry with _ | ⟨host', _ | port⟩
  · rw [hg] at h
    cases h
  · rw [hg] at h
    cases h
  · rw [hg] at h
    obtain rfl := Option.some.inj h
    refine ⟨port.text ++ ['/'] ++ pathText r.path ++ r.name.text, ?_⟩
    simp [repositoryText, directory, hg, registryText, portText]

/-- **With a port it is the host alone.** -/
theorem stripTag_text_of_port {host : Piece} (h : r.portedHost = some host) : stripTag r.text = host.text := by
  obtain ⟨rest, hrest⟩ := repositoryText_of_port h
  unfold stripTag text
  rw [hrest, List.append_assoc, List.append_assoc, takeWhile_append_of_not_mem host.colon_not_mem, List.cons_append,
    takeWhile_stop, List.append_nil]

/-- The directory is empty or ends with a `/`. -/
theorem ImageReference.directory_cases (r : ImageReference) : r.directory = [] ∨ ∃ d, r.directory = d ++ ['/'] := by
  unfold directory pathText
  rcases List.eq_nil_or_concat r.path with hp | ⟨path, c, hp⟩
  · rw [hp, List.flatMap_nil, List.append_nil]
    cases r.registry with
    | none => exact .inl rfl
    | some g => exact .inr ⟨g.host.text ++ portText g.port, rfl⟩
  · refine .inr ⟨registryText r.registry ++ pathText path ++ c.text, ?_⟩
    rw [hp, List.concat_eq_append, List.flatMap_append, List.flatMap_singleton]
    simp [pathText]

/-- **The container name is the last component of the path, and what the cut leaves of a digest.** -/
theorem deriveName_text (r : ImageReference) : deriveName r.text = r.name.text ++ r.leftover := by
  have hlast : '/' ∉ r.name.text ++ (tagText r.tag ++ digestText r.digest) := by
    have htag : '/' ∉ tagText r.tag := by
      cases r.tag with
      | none => exact List.not_mem_nil
      | some t =>
        rw [tagText, List.mem_cons, not_or]
        exact ⟨by decide, t.slash_not_mem⟩
    have hdigest : '/' ∉ digestText r.digest := by
      cases r.digest with
      | none => exact List.not_mem_nil
      | some d =>
        rw [digestText, List.mem_append, List.mem_cons, List.mem_cons]
        rintro ((h | h) | (h | h))
        · exact absurd h (by decide)
        · exact d.algorithm.slash_not_mem h
        · exact absurd h (by decide)
        · exact d.encoded.slash_not_mem h
    rw [List.mem_append, List.mem_append]
    rintro (h | h | h)
    · exact r.name.slash_not_mem h
    · exact htag h
    · exact hdigest h
  have htext : r.text = r.directory ++ (r.name.text ++ (tagText r.tag ++ digestText r.digest)) := by
    simp [text, repositoryText]
  unfold deriveName
  rw [htext, lastComponent_append hlast r.directory_cases, takeWhile_append_of_not_mem r.name.colon_not_mem,
    takeWhile_tagged]

/-! ## Telling references apart -/

/-- What the two cuts are for: the keys `new` computes are those of one application exactly if the repositories are one, and
targets of different repositories get different container names. -/
structure ToldApart (r s : ImageReference) : Prop where
  keys : ∀ (x : Application) (t : TargetApp), x.imageReference = r.text → t.image.reference = s.text →
    ((ReconcileIterator.new [x] [t]).current.map CurrentAppEntry.reference
      = (ReconcileIterator.new [x] [t]).target.map Prod.fst ↔ r.repositoryText = s.repositoryText)
  names : ∀ (image : Reference → Except Error (Option Image)) (cfg cfg' : AppsGetResponseItem) (t t' : TargetApp),
    cfg.image = r.text → cfg'.image = s.text → TargetApp.fromConfig image cfg = .ok t →
    TargetApp.fromConfig image cfg' = .ok t' → r.repositoryText ≠ s.repositoryText → t.name ≠ t'.name

/-- The ports and leftovers do not get into the way of the keys. -/
def KeysApart (r s : ImageReference) : Prop :=
  match r.portedHost, s.portedHost with
  | none, none => r.repositoryText = s.repositoryText → r.leftover = s.leftover
  | some host, none => s.leftover = [] → host.text ≠ s.repositoryText
  | none, some host => r.leftover = [] → r.repositoryText ≠ host.text
  | some host, some host' => host.text = host'.text → r.repositoryText = s.repositoryText

/-- Two repositories end in two components, or leave different things of their digests. -/
def NamesApart (r s : ImageReference) : Prop :=
  r.repositoryText = s.repositoryText ∨ r.name.text ≠ s.name.text ∨ r.leftover ≠ s.leftover

theorem ImageReference.leftover_cases (r : ImageReference) : r.leftover = [] ∨ ∃ rest, r.leftover = '@' :: rest := by
  unfold leftover
  split
  · exact .inr ⟨_, rfl⟩
  · exact .inl rfl

/-- Text without an `@`, and what begins with one or is empty, read one way. -/
theorem append_inj_at {l l' m m' : List Char} (hl : '@' ∉ l) (hl' : '@' ∉ l') (hm : m = [] ∨ ∃ rest, m = '@' :: rest)
    (hm' : m' = [] ∨ ∃ rest, m' = '@' :: rest) : l ++ m = l' ++ m' ↔ l = l' ∧ m = m' := by
  have hcut : ∀ {l m : List Char}, '@' ∉ l → (m = [] ∨ ∃ rest, m = '@' :: rest) →
      (l ++ m).takeWhile (fun d => decide (d ≠ '@')) = l := fun {l m} hl hm => by
    rw [takeWhile_append_of_not_mem hl]
    rcases hm with rfl | ⟨rest, rfl⟩
    · exact List.append_nil l
    · rw [takeWhile_stop, List.append_nil]
  constructor
  · intro h
    have heq : l = l' := by rw [← hcut hl hm, h, hcut hl' hm']
    subst heq
    exact ⟨rfl, List.append_cancel_left h⟩
  · rintro ⟨rfl, rfl⟩
    rfl

/-- A repository with a port is none without. -/
theorem repositoryText_ne_of_port {host : Piece} (hr : r.portedHost = some host) (hs : s.portedHost = none) :
    r.repositoryText ≠ s.repositoryText := by
  obtain ⟨rest, hrest⟩ := repositoryText_of_port hr
  intro heq
  refine colon_not_mem_repositoryText hs ?_
  rw [← heq, hrest]
  exact List.mem_append_right _ List.mem_cons_self

theorem host_eq_repository_iff {host : Piece} :
    host.text = s.repositoryText ++ s.leftover ↔ s.leftover = [] ∧ host.text = s.repositoryText := by
  have h := append_inj_at host.at_not_mem (at_not_mem_repositoryText s) (.inl rfl) s.leftover_cases
  rw [List.append_nil] at h
  rw [h, and_comm, eq_comm (a := [])]

theorem keysApart_iff (r s : ImageReference) :
    (stripTag r.text = stripTag s.text ↔ r.repositoryText = s.repositoryText) ↔ KeysApart r s := by
  unfold KeysApart
  rcases hr : r.portedHost with _ | host <;> rcases hs : s.portedHost with _ | host'
  · simp only
    rw [stripTag_text hr, stripTag_text hs,
      append_inj_at (at_not_mem_repositoryText r) (at_not_mem_repositoryText s) r.leftover_cases s.leftover_cases]
    constructor
    · exact fun h hrepo => (h.2 hrepo).2
    · exact fun h => ⟨And.left, fun hrepo => ⟨hrepo, h hrepo⟩⟩
  · simp only
    have hne := (repositoryText_ne_of_port hs hr).symm
    rw [stripTag_text hr, stripTag_text_of_port hs, eq_comm, host_eq_repository_iff]
    constructor
    · exact fun h hnil heq => hne (h.1 ⟨hnil, heq.symm⟩)
    · exact fun h => ⟨fun ⟨hnil, heq⟩ => absurd heq.symm (h hnil), fun hrepo => absurd hrepo hne⟩
  · simp only
    have hne := repositoryText_ne_of_port hr hs
    rw [stripTag_text_of_port hr, stripTag_text hs, host_eq_repository_iff]
    constructor
    · exact fun h hnil heq => hne (h.1 ⟨hnil, heq⟩)
    · exact fun h => ⟨fun ⟨hnil, heq⟩ => absurd heq (h hnil), fun hrepo => absurd hrepo hne⟩
  · simp only
    rw [stripTag_text_of_port hr, stripTag_text_of_port hs]
    refine ⟨Iff.mp, fun h => ⟨h, fun hrepo => ?_⟩⟩
    -- the hosts are read back from the repositories
    obtain ⟨rest, hrest⟩ := repositoryText_of_port hr
    obtain ⟨rest', hrest'⟩ := repositoryText_of_port hs
    have hcut := congrArg stripTag hrepo
    unfold stripTag at hcut
    rwa [hrest, hrest', takeWhile_append_of_not_mem host.colon_not_mem,
      takeWhile_append_of_not_mem host'.colon_not_mem, takeWhile_stop, takeWhile_stop, List.append_nil,
      List.append_nil] at hcut

theorem namesApart_iff (r s : ImageReference) :
    (r.repositoryText ≠ s.repositoryText → deriveName r.text ≠ deriveName s.text) ↔ NamesApart r s := by
  unfold NamesApart
  rw [deriveName_text, deriveName_text, Ne, Ne,
    append_inj_at r.name.at_not_mem s.name.at_not_mem r.leftover_cases s.leftover_cases, not_and_or]
  constructor
  · intro h
    by_cases hrepo : r.repositoryText = s.repositoryText
    · exact .inl hrepo
    · exact .inr (h hrepo)
  · rintro (h | h) hne
    · exact absurd h hne
    · exact h

theorem name_fromConfig {image : Reference → Except Error (Option Image)} {cfg : AppsGetResponseItem} {t : TargetApp}
    (h : TargetApp.fromConfig image cfg = .ok t) : t.name = deriveName cfg.image := by
  unfold TargetApp.fromConfig at h
  split at h
  · cases h
  · cases h
  · exact Except.ok.inj h ▸ rfl

/-- **Two references are told apart exactly if** their keys are not confused by a port (their hosts differ, or one is not the
whole repository of the other) nor by a digest without a tag, **and** their repositories do not end in one component. -/
theorem told_apart_iff (r s : ImageReference) : ToldApart r s ↔ KeysApart r s ∧ NamesApart r s := by
  rw [← keysApart_iff, ← namesApart_iff]
  have hkeys : ∀ (x : Application) (t : TargetApp), x.imageReference = r.text → t.image.reference = s.text →
      ((ReconcileIterator.new [x] [t]).current.map CurrentAppEntry.reference
        = (ReconcileIterator.new [x] [t]).target.map Prod.fst ↔ stripTag r.text = stripTag s.text) := by
    intro x t hx ht
    rw [← hx, ← ht]
    exact List.singleton_inj
  constructor
  · rintro ⟨hk, hn⟩
    constructor
    · have h := hk ⟨r.text, "", 0, none, [], 0⟩ ⟨⟨s.text, ""⟩, [], none, 0, 0⟩ rfl rfl
      rwa [hkeys _ _ rfl rfl] at h
    · exact hn (fun _ => .ok (some ⟨[], ""⟩)) ⟨0, 0, r.text, none⟩ ⟨0, 0, s.text, none⟩ _ _ rfl rfl rfl rfl
  · rintro ⟨hk, hn⟩
    refine ⟨fun x t hx ht => (hkeys x t hx ht).trans hk, fun image cfg cfg' t t' hc hc' ht ht' hne => ?_⟩
    rw [name_fromConfig ht, name_fromConfig ht', hc, hc']
    exact hn hne

def piece (s : String) (h : s.toList ≠ []) (h' : ∀ c ∈ s.toList, c ≠ '/' ∧ c ≠ ':' ∧ c ≠ '@') : Piece := ⟨s.toList, h, h'⟩

/-- A reference to an image in the registry `localhost:5000`. -/
def onLocalhost (name : Piece) : ImageReference :=
  ⟨some ⟨piece "localhost" (by decide) (by simp), some (piece "5000" (by decide) (by simp))⟩, [], name, none, none⟩

/-- **Two images of one registry with a port are one to the iterator.** -/
theorem registry_images_merged : ∃ r s : ImageReference, r.text = "localhost:5000/web".toList ∧
    s.text = "localhost:5000/db".toList ∧ r.repositoryText ≠ s.repositoryText ∧ stripTag r.text = stripTag s.text ∧
    ¬ ToldApart r s := by
  refine ⟨onLocalhost (piece "web" (by decide) (by simp)), onLocalhost (piece "db" (by decide) (by simp)),
    by decide, by decide, by decide, by decide, fun h => ?_⟩
  have hmerged := (h.keys ⟨"localhost:5000/web".toList, "", 0, none, [], 0⟩
    ⟨⟨"localhost:5000/db".toList, ""⟩, [], none, 0, 0⟩ (by decide) (by decide)).1 (by decide)
  exact absurd hmerged (by decide)

end Apps
end ZeroDowntime
