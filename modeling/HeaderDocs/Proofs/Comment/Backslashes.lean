import HeaderDocs.Proofs.Comment.Line
import Mathlib.Algebra.Ring.Parity
import Mathlib.Data.List.DropRight
import Mathlib.Data.List.Induction

/-!
Runs of backslashes. Markdown reads a bracket as markup when the backslashes right before it are
even in number. All that a bracket depends on is thus the length of the run of backslashes before
it, and each pass over a line is followed by what it does to these runs. Escaping looks at one
character only, so it serves the brackets behind no backslash and behind an odd number of them; the
passes after it change no run.
-/

namespace HeaderDocs.Comment

open Text Declaration Segment

set_option autoImplicit false

section Along

variable {State Item : Type} {next : State → Item → State} {holds : State → Item → Prop}

/-- Something holds of each item of a list in the state that the items before it lead to. -/
def Along (next : State → Item → State) (holds : State → Item → Prop) : State → List Item → Prop
  | _, [] => True
  | state, item :: rest => holds state item ∧ Along next holds (next state item) rest

theorem along_append (state : State) (left right : List Item) :
    Along next holds state (left ++ right) ↔
    Along next holds state left ∧ Along next holds (left.foldl next state) right := by
  induction left generalizing state with
  | nil => simp [Along]
  | cons item rest ih => simp [Along, ih, and_assoc]

theorem along_iff (state : State) (items : List Item) : Along next holds state items ↔
    ∀ before item after, items = before ++ item :: after →
      holds (before.foldl next state) item := by
  induction items generalizing state with
  | nil => simp [Along]
  | cons first rest ih =>
      rw [Along, ih]
      constructor
      · rintro ⟨own, later⟩ before item after split
        cases before with
        | nil =>
            obtain ⟨rfl, rfl⟩ := List.cons.inj split
            exact own
        | cons other others =>
            obtain ⟨rfl, rest⟩ := List.cons.inj split
            exact later others item after rest
      · intro everywhere
        refine ⟨everywhere [] first rest rfl, fun before item after split => ?_⟩
        exact everywhere (first :: before) item after (by rw [split, List.cons_append])

instance decidableAlong [∀ state item, Decidable (holds state item)] :
    ∀ (state : State) (items : List Item), Decidable (Along next holds state items)
  | _, [] => .isTrue trivial
  | state, item :: rest =>
      have := decidableAlong (next state item) rest
      inferInstanceAs (Decidable (holds state item ∧ Along next holds (next state item) rest))

end Along

def backslashes (text : List Char) : Nat :=
  (text.rtakeWhile (· == '\\')).length

/-- What stands behind a text is not escaped by it. -/
def IsLive (before : List Char) : Prop :=
  Even (backslashes before)

def nextRun (run : Nat) (c : Char) : Nat :=
  if c = '\\' then run + 1 else 0

def runAfter (run : Nat) (text : List Char) : Nat :=
  text.foldl nextRun run

theorem run_after_append (run : Nat) (left right : List Char) :
    runAfter run (left ++ right) = runAfter (runAfter run left) right :=
  List.foldl_append

theorem backslashes_eq_run (text : List Char) : backslashes text = runAfter 0 text := by
  induction text using List.reverseRecOn with
  | nil => rfl
  | append_singleton front last ih =>
      rw [run_after_append, ← ih, backslashes, List.rtakeWhile_concat]
      by_cases backslash : last = '\\'
      · simp [backslash, runAfter, nextRun, backslashes]
      · simp [backslash, runAfter, nextRun]

abbrev Mark := Char × Bool

def typed (text : List Char) : List Mark :=
  text.map fun c => (c, false)

def generated (text : List Char) : List Mark :=
  text.map fun c => (c, true)

def Segment.marks : Segment → List Mark
  | plain c => typed [c]
  | link name target => generated (codeLink name target)

/-- A bracket behind a run of backslashes is live exactly if it was generated. -/
def Rightly (run : Nat) (mark : Mark) : Prop :=
  isBracket mark.1 = true → (Even run ↔ mark.2 = true)

def Sound : Nat → List Mark → Prop :=
  Along (fun run mark => nextRun run mark.1) Rightly

/-- No bracket stands behind backslashes that are even in number, unless there are none. -/
def Escapable : Nat → List Char → Prop :=
  Along nextRun fun run c => isBracket c = true → run = 0 ∨ Odd run

theorem map_fst_typed (text : List Char) : (typed text).map Prod.fst = text := by
  simp [typed, Function.comp_def]

theorem map_fst_generated (text : List Char) : (generated text).map Prod.fst = text := by
  simp [generated, Function.comp_def]

theorem typed_append (left right : List Char) :
    typed (left ++ right) = typed left ++ typed right := by
  simp [typed]

theorem flat_map_marks_plains (text : List Char) : (plains text).flatMap marks = typed text := by
  rw [plains, List.flatMap_map, typed, List.map_eq_flatMap]
  rfl

theorem map_fst_marks (segments : List Segment) :
    (segments.flatMap marks).map Prod.fst = write segments := by
  rw [List.map_flatMap]
  apply List.flatMap_congr
  intro segment _
  cases segment with
  | plain c => rfl
  | link name target => exact map_fst_generated _

theorem sound_append (run : Nat) (left right : List Mark) :
    Sound run (left ++ right) ↔ Sound run left ∧
      Sound (runAfter run (left.map Prod.fst)) right := by
  rw [Sound, along_append, runAfter, List.foldl_map]

theorem sound_cons (run : Nat) (mark : Mark) (rest : List Mark) :
    Sound run (mark :: rest) ↔ Rightly run mark ∧ Sound (nextRun run mark.1) rest :=
  Iff.rfl

theorem sound_iff (marks : List Mark) : Sound 0 marks ↔
    ∀ before c isGenerated after, marks = before ++ (c, isGenerated) :: after → isBracket c = true →
      (IsLive (before.map Prod.fst) ↔ isGenerated = true) := by
  rw [Sound, along_iff]
  simp only [IsLive, backslashes_eq_run, runAfter, List.foldl_map, Prod.forall, Rightly]

def isIdle (c : Char) : Bool :=
  !isBracket c && c != '\\'

theorem next_run_idle {c : Char} (idle : isIdle c = true) (run : Nat) : nextRun run c = 0 := by
  have other : c ≠ '\\' := by
    rintro rfl
    simp [isIdle] at idle
  simp [nextRun, other]

theorem rightly_idle {c : Char} (idle : isIdle c = true) (run : Nat) (isGenerated : Bool) :
    Rightly run (c, isGenerated) := by
  intro bracket
  simp [isIdle, bracket] at idle

theorem sound_idle {c : Char} (idle : isIdle c = true) (run : Nat) (isGenerated : Bool)
    (rest : List Mark) :
    Sound run ((c, isGenerated) :: rest) ↔ Sound 0 rest := by
  rw [sound_cons, next_run_idle idle]
  exact and_iff_right (rightly_idle idle run isGenerated)

theorem sound_idles {text : List Char} (idle : ∀ c ∈ text, isIdle c = true) (run : Nat)
    (isGenerated : Bool) :
    Sound run (text.map fun c => (c, isGenerated)) := by
  induction text generalizing run with
  | nil => trivial
  | cons c rest ih =>
      rw [List.map_cons, sound_idle (idle c (by simp))]
      exact ih (fun d member => idle d (List.mem_cons_of_mem _ member)) 0

theorem run_after_idles {text : List Char} (idle : ∀ c ∈ text, isIdle c = true)
    (nonempty : text ≠ []) (run : Nat) :
    runAfter run text = 0 := by
  induction text generalizing run with
  | nil => exact absurd rfl nonempty
  | cons c rest ih =>
      have first : runAfter run (c :: rest) = runAfter 0 rest := by
        rw [runAfter, List.foldl_cons, next_run_idle (idle c (by simp))]
        rfl
      cases rest with
      | nil => exact first
      | cons d others =>
          rw [first, ih (fun e member => idle e (List.mem_cons_of_mem _ member)) (by simp)]

theorem next_run_pos (run : Nat) (c : Char) : (c == '\\') = decide (0 < nextRun run c) := by
  by_cases backslash : c = '\\' <;> simp [nextRun, backslash]

theorem next_run_bracket {c : Char} (bracket : isBracket c = true)
    (run : Nat) : nextRun run c = 0 := by
  have other : c ≠ '\\' := by
    rintro rfl
    simp [isBracket] at bracket
  simp [nextRun, other]

/-- A bracket that is escaped has one backslash before it; one that is left alone keeps the run that
it had. -/
theorem sound_escape_brackets {escaped : Bool} {run : Nat} (agrees : escaped = decide (0 < run))
    (text : List Char) :
    (Sound run (typed (escapeBrackets escaped text)) ↔ Escapable run text) ∧
      runAfter run (escapeBrackets escaped text) = runAfter run text := by
  fun_induction escapeBrackets escaped text generalizing run with
  | case1 => exact ⟨Iff.rfl, rfl⟩
  | case2 escaped c rest bare ih =>
      simp only [Bool.and_eq_true, Bool.not_eq_true'] at bare
      obtain ⟨bracket, unescaped⟩ := bare
      obtain rfl : run = 0 := by simpa [unescaped] using agrees
      obtain ⟨soundRest, runRest⟩ := ih (show false = decide (0 < 0) from rfl)
      have opening : Rightly 0 ('\\', false) := by simp [Rightly, isBracket]
      have dead : Rightly 1 (c, false) := by simp [Rightly]
      have source : Escapable 0 (c :: rest) ↔ Escapable (nextRun 0 c) rest :=
        and_iff_right fun _ => Or.inl rfl
      have written : Sound 0 (typed ('\\' :: c :: escapeBrackets false rest)) ↔
          Sound (nextRun 1 c) (typed (escapeBrackets false rest)) :=
        (and_iff_right opening).trans (and_iff_right dead)
      rw [next_run_bracket bracket] at source written
      refine ⟨written.trans (soundRest.trans source.symm), ?_⟩
      calc
        runAfter 0 ('\\' :: c :: escapeBrackets false rest) =
          runAfter (nextRun 1 c) (escapeBrackets false rest) := rfl
        _ = runAfter (nextRun 0 c) rest := by
          rw [next_run_bracket bracket, next_run_bracket bracket, runRest]
  | case3 escaped c rest kept ih =>
      obtain ⟨soundRest, runRest⟩ := ih (next_run_pos run c)
      refine ⟨?_, runRest⟩
      have own : Rightly run (c, false) ↔ (isBracket c = true → run = 0 ∨ Odd run) := by
        refine imp_congr_right fun bracket => ?_
        have running : 0 < run := by simpa [bracket, agrees, Nat.pos_iff_ne_zero] using kept
        simp only [Bool.false_eq_true, iff_false, Nat.not_even_iff_odd]
        exact ⟨Or.inr, fun either => either.resolve_left (by omega)⟩
      exact and_congr own soundRest

theorem sound_code_nulls (afterTick : Bool) (run : Nat) (text : List Char) :
    (Sound run (typed (codeNulls afterTick text)) ↔ Sound run (typed text)) ∧
      runAfter run (codeNulls afterTick text) = runAfter run text := by
  have idle : isIdle '\x60' = true ∧ isIdle 'N' = true ∧ isIdle 'U' = true ∧ isIdle 'L' = true := by
    decide
  obtain ⟨tick, n, u, l⟩ := idle
  have next {c : Char} (isIdle : isIdle c = true) (run : Nat) (text : List Char) :
      runAfter run (c :: text) = runAfter 0 text := by
    rw [runAfter, List.foldl_cons, next_run_idle isIdle]
    rfl
  fun_induction codeNulls afterTick text generalizing run with
  | case1 afterTick rest alone ih =>
      obtain ⟨soundRest, runRest⟩ := ih 0
      simp only [typed, List.map_cons, sound_idle tick, sound_idle n, sound_idle u, sound_idle l,
        next tick, next n, next u, next l] at soundRest ⊢
      exact ⟨soundRest, runRest⟩
  | case2 afterTick rest beside ih =>
      obtain ⟨soundRest, runRest⟩ := ih 0
      simp only [typed, List.map_cons, sound_idle n, sound_idle u, sound_idle l, next n, next u,
        next l] at soundRest ⊢
      exact ⟨soundRest, runRest⟩
  | case3 afterTick c rest _ ih =>
      obtain ⟨soundRest, runRest⟩ := ih (nextRun run c)
      exact ⟨and_congr_right fun _ => soundRest, runRest⟩
  | case4 => exact ⟨Iff.rfl, rfl⟩

theorem sound_escape_text (line : List Char) :
    (Sound 0 (typed (escapeText line)) ↔ Escapable 0 line) ∧
      runAfter 0 (escapeText line) = runAfter 0 line := by
  obtain ⟨soundBrackets, runBrackets⟩ :=
    sound_escape_brackets (show false = decide (0 < 0) from rfl) line
  obtain ⟨soundNulls, runNulls⟩ := sound_code_nulls false 0 (escapeBrackets false line)
  exact ⟨soundNulls.trans soundBrackets, runNulls.trans runBrackets⟩

/-- What follows a character that ends every run does not see what stands before it. -/
theorem sound_past {c : Char} (idle : isIdle c = true) (run : Nat) (text rest : List Char) :
    (Sound run (typed (text ++ c :: rest)) ↔ Sound run (typed text) ∧ Sound 0 (typed rest)) ∧
      runAfter run (text ++ c :: rest) = runAfter 0 rest := by
  constructor
  · rw [typed_append, sound_append]
    exact and_congr_right fun _ => sound_idle idle _ false (typed rest)
  · rw [run_after_append, runAfter, List.foldl_cons, next_run_idle idle]
    rfl

theorem sound_inline_code {c : Char} (idle : isIdle c = true) (name rest : List Char) :
    (Sound 0 (typed (inlineCode name ++ c :: rest)) ↔ Sound 0 (typed (name ++ c :: rest))) ∧
      runAfter 0 (inlineCode name ++ c :: rest) = runAfter 0 (name ++ c :: rest) := by
  have tick : isIdle '\x60' = true := by decide
  have shape : inlineCode name ++ c :: rest = [] ++ '\x60' :: (name ++ '\x60' :: c :: rest) := by
    simp [inlineCode]
  obtain ⟨soundOpen, runOpen⟩ := sound_past tick 0 [] (name ++ '\x60' :: c :: rest)
  obtain ⟨soundClose, runClose⟩ := sound_past tick 0 name (c :: rest)
  obtain ⟨soundBare, runBare⟩ := sound_past idle 0 name rest
  obtain ⟨soundNext, runNext⟩ := sound_past idle 0 [] rest
  rw [shape, soundOpen, runOpen, soundClose, runClose, soundBare, runBare]
  exact ⟨(and_iff_right trivial).trans
    (and_congr_right fun _ => soundNext.trans (and_iff_right trivial)), runNext⟩

theorem sound_code_names {names : List (List Char)} (nonempty : names ≠ []) {c : Char}
    (idle : isIdle c = true) (rest : List Char) :
    (Sound 0 (typed (codeNames names ++ c :: rest)) ↔
        Sound 0 (typed (List.intercalate [',', ' '] names ++ c :: rest))) ∧
      runAfter 0 (codeNames names ++ c :: rest) =
        runAfter 0 (List.intercalate [',', ' '] names ++ c :: rest) := by
  have comma : isIdle ',' = true := by decide
  have space : isIdle ' ' = true := by decide
  induction names with
  | nil => exact absurd rfl nonempty
  | cons name others ih =>
      cases others with
      | nil => simpa [codeNames] using sound_inline_code idle name rest
      | cons next further =>
          have coded : codeNames (name :: next :: further) ++ c :: rest =
              inlineCode name ++ ',' :: ' ' :: (codeNames (next :: further) ++ c :: rest) := by
            simp [codeNames, List.intercalate_cons_cons]
          have bare : List.intercalate [',', ' '] (name :: next :: further) ++ c :: rest =
              name ++ ',' :: ' ' :: (List.intercalate [',', ' '] (next :: further) ++ c ::
                rest) := by
            simp [List.intercalate_cons_cons]
          obtain ⟨soundNext, runNext⟩ := ih (by simp)
          have blank (text : List Char) := sound_past space 0 [] text
          rw [coded, bare, (sound_inline_code comma name _).1, (sound_inline_code comma name _).2,
            (sound_past comma 0 name _).1, (sound_past comma 0 name _).2,
            (sound_past comma 0 name _).1, (sound_past comma 0 name _).2]
          simp only [List.nil_append] at blank
          rw [(blank _).1, (blank _).2, (blank _).1, (blank _).2, soundNext, runNext]
          exact ⟨Iff.rfl, rfl⟩

theorem sound_mark_parameters (text : List Char) :
    (Sound 0 (typed (markParameters text)) ↔ Sound 0 (typed text)) ∧
      runAfter 0 (markParameters text) = runAfter 0 text := by
  unfold markParameters
  cases cut : cutAtPair ':' ' ' text with
  | none => exact ⟨Iff.rfl, rfl⟩
  | some parts =>
      obtain ⟨names, description⟩ := parts
      simp only
      split
      · have alike :=
          sound_code_names (split_at_pairs_ne_nil ',' ' ' names) (show isIdle ':' = true by decide)
            (' ' :: description)
        rwa [join_split_at_pairs, ← append_of_cut_at_pair cut] at alike
      · exact ⟨Iff.rfl, rfl⟩

theorem sound_plains_append (head : List Char) (tail : List Segment) :
    (Sound 0 ((plains head ++ tail).flatMap marks) ↔
        Sound 0 (typed head) ∧ Sound (runAfter 0 head) (tail.flatMap marks)) ∧
      runAfter 0 (write (plains head ++ tail)) = runAfter (runAfter 0 head) (write tail) := by
  rw [List.flatMap_append, flat_map_marks_plains, sound_append, map_fst_typed, write_append,
    write_plains, run_after_append]
  exact ⟨Iff.rfl, rfl⟩

theorem sound_mark_segments (segments : List Segment) :
    (Sound 0 ((markSegments segments).flatMap marks) ↔ Sound 0 (segments.flatMap marks)) ∧
      runAfter 0 (write (markSegments segments)) = runAfter 0 (write segments) := by
  obtain ⟨opening, rest, split, -, marked⟩ := mark_segments_split segments
  obtain ⟨soundHead, runHead⟩ := sound_mark_parameters opening
  rw [marked, split, (sound_plains_append _ _).1, (sound_plains_append _ _).2,
    (sound_plains_append _ _).1, (sound_plains_append _ _).2, soundHead, runHead]
  exact ⟨Iff.rfl, rfl⟩

end HeaderDocs.Comment
