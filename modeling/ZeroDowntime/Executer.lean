import ZeroDowntime.Pipes
import ZeroDowntime.Runs
/-!
# Executer — a command's output is captured

`RealExecuter::execute` reads the two pipes of its child until both have ended, and only then waits for the child.  The
child, or whoever inherited its pipes, writes and closes them at any time, and it exits at any time; `select!` takes either
branch whose reader has something.  What a pipe holds is taken line by line; a read may fail.
-/
namespace ZeroDowntime
namespace Executer

open Pipes (Capacity Pipe)

/-- What `next_line` gives before the end of file. -/
inductive NextLine
  | line (text : List Char)
  | error
  deriving DecidableEq, Repr

/-- A branch of the loop: its reader, what it captured and whether it is done. -/
structure Branch where
  reader : Pipe NextLine
  captured : List Char
  done : Bool

inductive Source
  | stdout
  | stderr
  deriving DecidableEq, Repr

structure ExecResult where
  stdout : List Char
  stderr : List Char
  exitCode : Option Int
  deriving DecidableEq, Repr

/-- `exited` is the code of the child's exit status, which a signal leaves without one; `returned` is what `execute`
returns, an error where it is `none` inside. -/
structure Execution where
  stdout : Branch
  stderr : Branch
  exited : Option (Option Int)
  returned : Option (Option ExecResult)

inductive ExecAction
  /-- The child. -/
  | write (source : Source)
  | close (source : Source)
  | exit (code : Option Int)
  /-- `select!` takes a branch. -/
  | select (source : Source)
  /-- `child.wait()` returns. -/
  | wait (ok : Bool)
  deriving DecidableEq, Repr

/-- A branch of `select!`, disabled when it is done; `none` while its reader has nothing. -/
def Branch.select (b : Branch) : Option Branch :=
  if b.done then none
  else
    match b.reader.read with
    | none => none
    | some (some (.line text), reader) => some ⟨reader, b.captured ++ text ++ ['\n'], b.done⟩
    | some (_, reader) => some ⟨reader, b.captured, true⟩

namespace Execution

/-- The child is spawned, with what it will write. -/
def spawned (stdout stderr : List NextLine) : Execution :=
  ⟨⟨.fresh stdout, [], false⟩, ⟨.fresh stderr, [], false⟩, none, none⟩

def branch (s : Execution) : Source → Branch
  | .stdout => s.stdout
  | .stderr => s.stderr

def set (s : Execution) (b : Branch) : Source → Execution
  | .stdout => { s with stdout := b }
  | .stderr => { s with stderr := b }

/-- The condition of the loop. -/
def draining (s : Execution) : Bool := !s.stdout.done || !s.stderr.done

/-- What `execute` makes of an exit status. -/
def result (s : Execution) (code : Option Int) : ExecResult :=
  ⟨s.stdout.captured, s.stderr.captured, if code.isNone then some 137 else code⟩

def step (c : Capacity NextLine) (s : Execution) : ExecAction → Option Execution
  | .write source => ((s.branch source).reader.write c).map (fun p => s.set { s.branch source with reader := p } source)
  | .close source => (s.branch source).reader.close.map (fun p => s.set { s.branch source with reader := p } source)
  | .exit code => if s.exited.isSome then none else some { s with exited := some code }
  | .select source => if s.draining then (s.branch source).select.map (fun b => s.set b source) else none
  | .wait ok =>
    if s.draining || s.returned.isSome then none
    else if ok then s.exited.map (fun code => { s with returned := some (some (s.result code)) })
    else some { s with returned := some none }

end Execution

/-- `Bootc::status`, of what `bootc status --json` returned; `parse` reads the JSON.  The call's own error is passed on. -/
def status {β : Type} (parse : List Char → Option β) (returned : Option ExecResult) : Option (Except String β) :=
  returned.map (fun res =>
    if res.exitCode ≠ some (0 : Int) then .error ("bootc status error: " ++ String.ofList res.stderr)
    else
      match parse res.stdout with
      | none => .error "Failed to parse bootc status JSON"
      | some status => .ok status)

/-! ## A branch -/

/-- The lines before the first failure. -/
def readable : List NextLine → List (List Char)
  | .line text :: rest => text :: readable rest
  | _ => []

/-- Each line, followed by a newline. -/
def joined (lines : List (List Char)) : List Char := lines.flatMap (fun line => line ++ ['\n'])

/-- What a branch has still to capture. -/
def Branch.left (b : Branch) : List (List Char) := if b.done then [] else readable b.reader.toCome

def Branch.work (b : Branch) : Nat := b.reader.work + (!b.done).toNat

/-- What is captured and what is left are what could be read all along; a branch that is done has read to the end, or to
a failure. -/
structure Branch.Captures (content : List NextLine) (b : Branch) : Prop where
  lossless : b.captured ++ joined b.left = joined (readable content)
  suffix : b.reader.toCome <:+ content
  ended : b.done = true → .error ∉ content → b.reader.toCome = []

theorem readable_map_line : ∀ lines : List (List Char), readable (lines.map .line) = lines
  | [] => rfl
  | line :: lines => by rw [List.map_cons, readable, readable_map_line lines]

theorem error_not_mem_lines (lines : List (List Char)) : NextLine.error ∉ lines.map .line := by simp

namespace Branch

variable {content : List NextLine} {b b' : Branch}

/-- **A branch that is done has captured every line before the end, or before the first failure.** -/
theorem Captures.captured (h : b.Captures content) (hdone : b.done = true) : b.captured = joined (readable content) := by
  have hlossless := h.lossless
  rw [left, hdone, if_pos rfl] at hlossless
  rw [← hlossless]
  exact (List.append_nil _).symm

/-- What the child does to the pipe is not noticed. -/
theorem Captures.reader (h : b.Captures content) (p : Pipe NextLine) (hp : p.toCome = b.reader.toCome) :
    Captures content { b with reader := p } where
  lossless := by
    have hleft : left { b with reader := p } = b.left := by simp only [left, hp]
    rw [hleft]
    exact h.lossless
  suffix := by
    rw [hp]
    exact h.suffix
  ended := by
    rw [hp]
    exact h.ended

theorem select_cases (h : b.select = some b') : b.done = false ∧
    ((∃ text p, b.reader.read = some (some (.line text), p) ∧ b' = ⟨p, b.captured ++ text ++ ['\n'], false⟩) ∨
      (∃ p, b.reader.read = some (some .error, p) ∧ b' = ⟨p, b.captured, true⟩) ∨
      (∃ p, b.reader.read = some (none, p) ∧ b' = ⟨p, b.captured, true⟩)) := by
  unfold select at h
  split at h
  · cases h
  rename_i hdone
  have hfalse := Bool.eq_false_iff.2 hdone
  refine ⟨hfalse, ?_⟩
  split at h
  · cases h
  · rename_i text p hread
    rw [hfalse] at h
    exact .inl ⟨text, p, hread, (Option.some.inj h).symm⟩
  · rename_i got p hnot hread
    obtain rfl := Option.some.inj h
    match got, hnot, hread with
    | none, _, hread => exact .inr (.inr ⟨p, hread, rfl⟩)
    | some .error, _, hread => exact .inr (.inl ⟨p, hread, rfl⟩)
    | some (.line text), hnot, _ => exact absurd rfl (hnot text)

theorem Captures.select (h : b.Captures content) (hs : b.select = some b') : b'.Captures content := by
  obtain ⟨hdone, hread⟩ := select_cases hs
  have hlossless := h.lossless
  rw [left, hdone, if_neg Bool.false_ne_true] at hlossless
  rcases hread with ⟨text, p, hread, rfl⟩ | ⟨p, hread, rfl⟩ | ⟨p, hread, rfl⟩
  · have hnext := Pipe.toCome_read hread
    rw [hnext] at hlossless
    refine ⟨?_, ?_, fun hd => by cases hd⟩
    · rw [← hlossless, left, if_neg Bool.false_ne_true]
      simp [joined, readable]
    · have hsuffix := h.suffix
      rw [hnext] at hsuffix
      exact (List.suffix_cons _ _).trans hsuffix
  · have hnext := Pipe.toCome_read hread
    have hsuffix := h.suffix
    rw [hnext] at hlossless hsuffix
    refine ⟨hlossless, (List.suffix_cons _ _).trans hsuffix, fun _ herror => ?_⟩
    exact absurd (hsuffix.subset List.mem_cons_self) herror
  · obtain ⟨hend, rfl⟩ := Pipe.toCome_read_end hread
    rw [hend] at hlossless
    exact ⟨hlossless, h.suffix, fun _ _ => hend⟩

theorem work_select (h : b.select = some b') : b'.work < b.work := by
  obtain ⟨hdone, ⟨text, p, hread, rfl⟩ | ⟨p, hread, rfl⟩ | ⟨p, hread, rfl⟩⟩ := select_cases h
  · have := Pipe.work_read hread
    simp only [work, hdone]
    omega
  · have := Pipe.work_read hread
    simp only [work, hdone, Bool.not_true, Bool.toNat_false, Bool.not_false, Bool.toNat_true]
    omega
  · obtain ⟨-, rfl⟩ := Pipe.toCome_read_end hread
    simp only [work, hdone, Bool.not_true, Bool.toNat_false, Bool.not_false, Bool.toNat_true]
    omega

theorem isSome_select (hdone : b.done = false) (hread : b.reader.read.isSome) : b.select.isSome := by
  obtain ⟨⟨got, p⟩, hread⟩ := Option.isSome_iff_exists.1 hread
  rw [select, hdone, if_neg Bool.false_ne_true, hread]
  match got with
  | none => rfl
  | some .error => rfl
  | some (.line text) => rfl

end Branch

/-! ## The loop -/

namespace Execution

variable {c : Capacity NextLine} {s s' : Execution} {a : ExecAction}

/-- What a step can do: to one branch's pipe, to a branch, to the child, to the call. -/
inductive Stepped (c : Capacity NextLine) (s : Execution) : Execution → Prop
  | piped (source : Source) (p : Pipe NextLine)
    (hp : (s.branch source).reader.write c = some p ∨ (s.branch source).reader.close = some p) :
    Stepped c s (s.set { s.branch source with reader := p } source)
  | selected (source : Source) (b : Branch) (hs : s.draining = true) (hb : (s.branch source).select = some b) :
    Stepped c s (s.set b source)
  | exited (code : Option Int) (h : s.exited = none) : Stepped c s { s with exited := some code }
  | reaped (code : Option Int) (hs : s.draining = false) (hr : s.returned = none) (h : s.exited = some code) :
    Stepped c s { s with returned := some (some (s.result code)) }
  | failed (hs : s.draining = false) (hr : s.returned = none) : Stepped c s { s with returned := some none }

theorem stepped_of_step (h : s.step c a = some s') : Stepped c s s' := by
  cases a with
  | write source =>
    obtain ⟨p, hp, rfl⟩ := Option.map_eq_some_iff.1 h
    exact .piped source p (.inl hp)
  | close source =>
    obtain ⟨p, hp, rfl⟩ := Option.map_eq_some_iff.1 h
    exact .piped source p (.inr hp)
  | exit code =>
    simp only [step] at h
    split at h
    · cases h
    · rename_i hexited
      exact Option.some.inj h ▸ .exited code (by simpa using hexited)
  | select source =>
    simp only [step] at h
    split at h
    · rename_i hs
      obtain ⟨b, hb, rfl⟩ := Option.map_eq_some_iff.1 h
      exact .selected source b hs hb
    · cases h
  | wait ok =>
    simp only [step] at h
    split at h
    · cases h
    rename_i hno
    have hno : s.draining = false ∧ s.returned = none := by simpa using hno
    split at h
    · obtain ⟨code, hcode, rfl⟩ := Option.map_eq_some_iff.1 h
      exact .reaped code hno.1 hno.2 hcode
    · exact Option.some.inj h ▸ .failed hno.1 hno.2

def work (s : Execution) : Nat :=
  s.stdout.work + s.stderr.work + s.exited.isNone.toNat + s.returned.isNone.toNat

theorem work_set (b : Branch) (source : Source) (h : b.work < (s.branch source).work) :
    (s.set b source).work < s.work := by
  cases source with
  | stdout =>
    have h : b.work < s.stdout.work := h
    simp only [work, set]
    omega
  | stderr =>
    have h : b.work < s.stderr.work := h
    simp only [work, set]
    omega

/-- **Every step uses something up.** -/
theorem work_step (h : s.step c a = some s') : s'.work < s.work := by
  cases stepped_of_step h with
  | piped source p hp =>
    refine work_set _ source (Nat.add_lt_add_right ?_ _)
    rcases hp with hp | hp
    · exact Pipe.work_write hp
    · exact Pipe.work_close hp
  | selected source b _ hb => exact work_set b source (Branch.work_select hb)
  | exited code hexited =>
    simp only [work, hexited, Option.isNone_some, Option.isNone_none, Bool.toNat_false, Bool.toNat_true]
    omega
  | reaped code _ hr _ =>
    simp only [work, hr, Option.isNone_some, Option.isNone_none, Bool.toNat_false, Bool.toNat_true]
    omega
  | failed _ hr =>
    simp only [work, hr, Option.isNone_some, Option.isNone_none, Bool.toNat_false, Bool.toNat_true]
    omega

/-- **The loop never waits in vain**: as long as it runs, a branch that is not done has something, or the child can write
it. -/
theorem exists_move (c : Capacity NextLine) (h : s.draining = true) : ∃ source, (s.step c (.write source)).isSome ∨
    (s.step c (.close source)).isSome ∨ (s.step c (.select source)).isSome := by
  have hopen : ∃ source, (s.branch source).done = false := by
    rw [draining, Bool.or_eq_true, Bool.not_eq_true', Bool.not_eq_true'] at h
    rcases h with h | h
    · exact ⟨.stdout, h⟩
    · exact ⟨.stderr, h⟩
  obtain ⟨source, hdone⟩ := hopen
  refine ⟨source, ?_⟩
  rcases Pipe.exists_move c (s.branch source).reader with hmove | hmove | hmove
  · exact .inl (by rw [step, Option.isSome_map]; exact hmove)
  · exact .inr (.inl (by rw [step, Option.isSome_map]; exact hmove))
  · exact .inr (.inr (by rw [step, if_pos h, Option.isSome_map]; exact Branch.isSome_select hdone hmove))

/-- Both branches capture what is written, and the call returns a result only of branches that are done. -/
structure Captures (stdout stderr : List NextLine) (s : Execution) : Prop where
  stdout : s.stdout.Captures stdout
  stderr : s.stderr.Captures stderr
  returned : s.returned ≠ none → s.draining = false
  result : ∀ r, s.returned = some (some r) → ∃ code, s.exited = some code ∧ r = s.result code

variable {stdout stderr : List NextLine}

theorem captures_spawned (stdout stderr : List NextLine) : (spawned stdout stderr).Captures stdout stderr where
  stdout := ⟨rfl, List.suffix_refl _, fun h => absurd h Bool.false_ne_true⟩
  stderr := ⟨rfl, List.suffix_refl _, fun h => absurd h Bool.false_ne_true⟩
  returned := fun h => absurd rfl h
  result := fun _ h => by cases h

theorem set_same {b : Branch} {source : Source} (hdone : b.done = (s.branch source).done)
    (hcaptured : b.captured = (s.branch source).captured) :
    (s.set b source).draining = s.draining ∧ ∀ code, (s.set b source).result code = s.result code := by
  cases source with
  | stdout =>
    have hdone : b.done = s.stdout.done := hdone
    have hcaptured : b.captured = s.stdout.captured := hcaptured
    exact ⟨by rw [draining, draining, set, hdone], fun code => by rw [result, result, set, hcaptured]⟩
  | stderr =>
    have hdone : b.done = s.stderr.done := hdone
    have hcaptured : b.captured = s.stderr.captured := hcaptured
    exact ⟨by rw [draining, draining, set, hdone], fun code => by rw [result, result, set, hcaptured]⟩

/-- A branch may capture more until the call returns. -/
theorem Captures.set (h : s.Captures stdout stderr) (b : Branch) (source : Source)
    (hb : ∀ content, (s.branch source).Captures content → b.Captures content)
    (hr : s.returned ≠ none → b.done = (s.branch source).done ∧ b.captured = (s.branch source).captured) :
    (s.set b source).Captures stdout stderr := by
  have hkept : (s.set b source).returned = s.returned ∧ (s.set b source).exited = s.exited := by
    cases source <;> exact ⟨rfl, rfl⟩
  have hreturned : (s.set b source).returned ≠ none → (s.set b source).draining = false := by
    rw [hkept.1]
    exact fun hret => (set_same (hr hret).1 (hr hret).2).1.trans (h.returned hret)
  have hresult : ∀ r, (s.set b source).returned = some (some r) →
      ∃ code, (s.set b source).exited = some code ∧ r = (s.set b source).result code := by
    rw [hkept.1, hkept.2]
    intro r hres
    obtain ⟨hdone, hcaptured⟩ := hr (by rw [hres]; exact Option.some_ne_none _)
    obtain ⟨code, hcode, hresult⟩ := h.result r hres
    exact ⟨code, hcode, by rw [(set_same hdone hcaptured).2 code, hresult]⟩
  cases source with
  | stdout => exact ⟨hb stdout h.stdout, h.stderr, hreturned, hresult⟩
  | stderr => exact ⟨h.stdout, hb stderr h.stderr, hreturned, hresult⟩

theorem Captures.step (h : s.Captures stdout stderr) (hs : s.step c a = some s') : s'.Captures stdout stderr := by
  cases stepped_of_step hs with
  | piped source p hp =>
    refine h.set _ source (fun content hcontent => hcontent.reader p ?_) (fun _ => ⟨rfl, rfl⟩)
    rcases hp with hp | hp
    · exact Pipe.toCome_write hp
    · exact Pipe.toCome_close hp
  | selected source b hdraining hb =>
    refine h.set b source (fun _ hcontent => hcontent.select hb) (fun hret => ?_)
    rw [h.returned hret] at hdraining
    cases hdraining
  | exited code hexited =>
    refine ⟨h.stdout, h.stderr, h.returned, fun r hres => ?_⟩
    obtain ⟨code', hcode, -⟩ := h.result r hres
    rw [hexited] at hcode
    cases hcode
  | reaped code hdrained hr hcode =>
    refine ⟨h.stdout, h.stderr, fun _ => hdrained, fun r hres => ⟨code, hcode, ?_⟩⟩
    exact (Option.some.inj (Option.some.inj hres)).symm
  | failed hdrained hr => exact ⟨h.stdout, h.stderr, fun _ => hdrained, fun _ hres => by cases hres⟩

/-- **Both streams are read to their end.** -/
def Drained (s : Execution) : Prop := s.draining = false ∧ s.stdout.reader.toCome = [] ∧ s.stderr.reader.toCome = []

theorem done_of_drained (h : s.draining = false) : s.stdout.done = true ∧ s.stderr.done = true := by
  simpa [draining] using h

/-- A loop that has ended has read every line there was, if no read failed. -/
theorem Captures.drained {out err : List (List Char)} (h : s.Captures (out.map .line) (err.map .line))
    (hs : s.draining = false) : s.Drained ∧ s.stdout.captured = joined out ∧ s.stderr.captured = joined err := by
  obtain ⟨hout, herr⟩ := done_of_drained hs
  have hstdout := h.stdout.captured hout
  have hstderr := h.stderr.captured herr
  rw [readable_map_line] at hstdout hstderr
  exact ⟨⟨hs, h.stdout.ended hout (error_not_mem_lines out), h.stderr.ended herr (error_not_mem_lines err)⟩, hstdout,
    hstderr⟩

/-- What is returned of streams without failures, whatever was read first. -/
theorem Captures.of_returned {out err : List (List Char)} (h : s.Captures (out.map .line) (err.map .line))
    {r : ExecResult} (hres : s.returned = some (some r)) :
    ∃ code : Option Int, s.exited = some code ∧ r = ⟨joined out, joined err, some (code.getD 137)⟩ := by
  have hret : s.returned ≠ none := by rw [hres]; exact Option.some_ne_none _
  obtain ⟨-, hout, herr⟩ := h.drained (h.returned hret)
  obtain ⟨code, hcode, rfl⟩ := h.result r hres
  refine ⟨code, hcode, ?_⟩
  rw [Execution.result, hout, herr]
  cases code <;> rfl

theorem captures_of_run {as : List ExecAction} (hr : Runs.run (step c) (spawned stdout stderr) as = some s) :
    s.Captures stdout stderr :=
  Runs.run_invariant (fun _ _ _ h hs => h.step hs) (captures_spawned stdout stderr) hr

/-- **The status is parsed from all that bootc wrote**, if it exits with 0. -/
theorem status_of_output {β : Type} (parse : List Char → Option β) (out err : List (List Char)) (as : List ExecAction)
    (hr : Runs.run (step c) (spawned (out.map .line) (err.map .line)) as = some s) {r : ExecResult}
    (hres : s.returned = some (some r)) (hexit : s.exited = some (some 0)) :
    status parse (some r) = some (match parse (joined out) with
      | none => .error "Failed to parse bootc status JSON"
      | some status => .ok status) := by
  obtain ⟨code, hcode, rfl⟩ := (captures_of_run hr).of_returned hres
  rw [hexit] at hcode
  obtain rfl := Option.some.inj hcode
  rfl

/-- **Subprocess output is captured completely**, whatever lines the child writes and in whatever order the branches are
taken.  A run is no longer than there is to write, to read and to end, and the loop never waits in vain, so it ends; when
it has, each stream was read to its end and is captured, line by line.  The child is reaped only then, and what is returned
is what was captured, with the child's exit code or 137. -/
theorem output_captured_completely (c : Capacity NextLine) (out err : List (List Char)) (as : List ExecAction)
    (s : Execution) (hr : Runs.run (step c) (spawned (out.map .line) (err.map .line)) as = some s) :
    as.length ≤ 2 * out.length + 2 * err.length + 6 ∧
      (s.draining = true → ∃ source, (s.step c (.write source)).isSome ∨ (s.step c (.close source)).isSome ∨
        (s.step c (.select source)).isSome) ∧
      (s.draining = false → s.Drained ∧ s.stdout.captured = joined out ∧ s.stderr.captured = joined err) ∧
      (∀ ok s', s.step c (.wait ok) = some s' → s.Drained) ∧
      ∀ r, s.returned = some (some r) →
        ∃ code : Option Int, s.exited = some code ∧ r = ⟨joined out, joined err, some (code.getD 137)⟩ := by
  have h := captures_of_run hr
  refine ⟨?_, fun hs => exists_move c hs, h.drained, fun ok s' hwait => ?_, fun r hres => h.of_returned hres⟩
  · have hlen := Runs.run_length_le (fun _ _ _ h => work_step h) hr
    have hwork : (spawned (out.map .line) (err.map .line)).work = 2 * out.length + 2 * err.length + 6 := by
      simp only [work, spawned, Branch.work, Pipe.work, Pipe.fresh, List.length_map, List.length_nil]
      simp only [Bool.not_false, Bool.toNat_true, Option.isNone_none]
      omega
    omega
  · have hdrained : s.draining = false := by
      simp only [Execution.step] at hwait
      split at hwait
      · cases hwait
      · rename_i hno
        exact (by simpa using hno : s.draining = false ∧ s.returned = none).1
    exact (h.drained hdrained).1

/-- A pipe for one line, a child that exits before its last line is read. -/
def exitedEarly : List ExecAction :=
  [.write .stdout, .close .stderr, .select .stderr, .select .stdout, .write .stdout, .close .stdout, .exit (some 0),
    .select .stdout, .select .stdout, .wait true]

theorem output_captured_exited_early : ∃ s,
    Runs.run (step ⟨fun held => !held.isEmpty, rfl⟩) (spawned [.line ['a'], .line ['b']] []) exitedEarly = some s ∧
      exitedEarly.length ≤ 2 * 2 + 2 * 0 + 6 ∧ s.Drained ∧ s.stdout.captured = ['a', '\n', 'b', '\n'] ∧
      s.returned = some (some ⟨['a', '\n', 'b', '\n'], [], some 0⟩) :=
  have h := output_captured_completely ⟨fun held => !held.isEmpty, rfl⟩ [['a'], ['b']] [] exitedEarly _ rfl
  ⟨_, rfl, h.1, (h.2.2.1 rfl).1, (h.2.2.1 rfl).2.1, rfl⟩

end Execution
end Executer
end ZeroDowntime
