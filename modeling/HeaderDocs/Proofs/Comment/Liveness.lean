import HeaderDocs.Proofs.Comment.Backslashes
import HeaderDocs.Proofs.Comment.Links
import HeaderDocs.Text.Word

/-!
Which brackets in the Markdown of a comment are live. The brackets that are live are the generated
ones, those of links and of breaks between lines, unless a run of backslashes stands in one of three
places: before a typed bracket, before a mention that is given a link, or at the end of a line that
a break follows.
-/

namespace HeaderDocs.Comment

open Text Declaration Segment

set_option autoImplicit false

theorem mention_char_idle {c : Char} (isChar : isMentionChar c = true) : isIdle c = true := by
  have other : c ≠ '\\' := by
    rintro rfl
    exact absurd isChar (by decide)
  simp [isIdle, not_bracket_of_mention_char isChar, other]

/-- The anchors that a look-up gives hold neither brackets nor backslashes. -/
def Worded (lookup : Lookup) : Prop :=
  ∀ name anchor, lookup name = some anchor → ∀ c ∈ anchor, isIdle c = true

theorem inline_code_idle {name : List Char} (idle : ∀ c ∈ name, isIdle c = true) :
    ∀ c ∈ inlineCode name, isIdle c = true := by
  intro c member
  simp only [inlineCode, List.mem_cons, List.mem_append, List.not_mem_nil, or_false] at member
  rcases member with rfl | inName | rfl
  · decide
  · exact idle c inName
  · decide

/-- Of a link, only the opening bracket depends on what stands before it. -/
theorem sound_code_link {name target : List Char} (idleName : ∀ c ∈ name, isIdle c = true)
    (idleTarget : ∀ c ∈ target, isIdle c = true) (run : Nat) :
    (Sound run (generated (codeLink name target)) ↔ Even run) ∧
      runAfter run (codeLink name target) = 0 := by
  have code := inline_code_idle idleName
  have round : ∀ c ∈ '(' :: (target ++ [')']), isIdle c = true := by
    intro c member
    simp only [List.mem_cons, List.mem_append, List.not_mem_nil, or_false] at member
    rcases member with rfl | inTarget | rfl
    · decide
    · exact idleTarget c inTarget
    · decide
  have codeRun : runAfter 0 (inlineCode name) = 0 := run_after_idles code (by simp [inlineCode]) 0
  constructor
  · have closing : Rightly 0 (']', true) := by simp [Rightly]
    have opening : Rightly run ('[', true) ↔ Even run := by simp [Rightly, isBracket]
    have shape : generated (codeLink name target) =
        ('[', true) :: (generated (inlineCode name) ++ (']', true) ::
          generated ('(' :: (target ++ [')']))) := by
      simp [generated, codeLink]
    have soundRest :
        Sound 0 (generated (inlineCode name) ++ (']', true) ::
          generated ('(' :: (target ++ [')']))) := by
      rw [sound_append, map_fst_generated, codeRun]
      exact ⟨sound_idles code 0 true, closing, sound_idles round 0 true⟩
    rw [shape, sound_cons, opening]
    exact and_iff_left soundRest
  · have shape : codeLink name target = ('[' :: inlineCode name ++ [']']) ++ '(' ::
        (target ++ [')']) := by
      simp [codeLink]
    rw [shape, run_after_append]
    exact run_after_idles round (by simp) _

theorem sound_shown {lookup : Lookup} (worded : Worded lookup) {name : List Char}
    (isName : IsName name) (run : Nat) :
    (Sound run ((Shown.ofName lookup name).segments.flatMap marks) ↔
        ((Shown.ofName lookup name).link?.isSome = true → Even run)) ∧
      runAfter run (write (Shown.ofName lookup name).segments) = 0 := by
  have idleName : ∀ c ∈ name, isIdle c = true :=
    fun c member => mention_char_idle (isName.2 c member)
  have code : (Sound run ((Shown.code name).segments.flatMap marks) ↔
        ((Shown.code name).link?.isSome = true → Even run)) ∧
      runAfter run (write (Shown.code name).segments) = 0 := by
    rw [Shown.segments, flat_map_marks_plains, write_plains]
    refine ⟨?_, run_after_idles (inline_code_idle idleName) (by simp [inlineCode]) run⟩
    have soundCode : Sound run (typed (inlineCode name)) :=
      sound_idles (inline_code_idle idleName) run false
    simpa [Shown.link?] using soundCode
  have shown := shown_as lookup name
  generalize Shown.ofName lookup name = form at shown ⊢
  cases shown with
  | pointer starred => exact code
  | linked starless known =>
      simpa [Shown.segments, Shown.link?, marks, Segment.text] using
        sound_code_link idleName (worded _ _ known) run
  | @plural singular anchor starless unknown ending known =>
      have idleSingular : ∀ c ∈ singular, isIdle c = true := by
        intro c member
        exact idleName c (by simp [ending, member])
      obtain ⟨soundLink, runLink⟩ := sound_code_link idleSingular (worded _ _ known) run
      have letter : ∀ c ∈ ['s'], isIdle c = true := List.all_eq_true.1 (by decide)
      have soundLetter : Sound 0 (typed ['s']) := sound_idles letter 0 false
      constructor
      · simp only [Shown.segments, List.flatMap_cons, List.flatMap_nil, List.append_nil, marks,
          sound_append, map_fst_generated, runLink, soundLink]
        simpa [Shown.link?] using fun _ : Even run => soundLetter
      · simp only [Shown.segments, write_cons, write_nil, Segment.text, List.append_nil,
          run_after_append, runLink]
        exact run_after_idles letter (by simp) 0
  | unknown starless unknown noSingular => exact code

/-- No mention that is given a link stands behind backslashes that are odd in number. -/
def Linkable (lookup : Lookup) : Nat → List Piece → Prop :=
  Along (fun run piece => runAfter run piece.source) fun run piece =>
    (piece.link? lookup).isSome = true → Even run

theorem sound_pieces {lookup : Lookup} (worded : Worded lookup) (run : Nat) (text : List Char) :
    (Sound run (((pieces text).flatMap (Piece.segments lookup)).flatMap marks) ↔
        Sound run (typed text) ∧ Linkable lookup run (pieces text)) ∧
      runAfter run (write ((pieces text).flatMap (Piece.segments lookup))) = runAfter run text := by
  fun_induction pieces text generalizing run with
  | case1 => exact ⟨(and_iff_left trivial).symm, rfl⟩
  | case2 c rest name after found ih =>
      obtain ⟨long, chars⟩ := mention_chars found
      have nonempty : name ≠ [] := by
        intro empty
        simp [empty] at long
      have idle : ∀ c ∈ name, isIdle c = true := fun c member => mention_char_idle (chars c member)
      obtain ⟨soundShown, runShown⟩ := sound_shown worded ⟨nonempty, chars⟩ run
      obtain ⟨soundAfter, runAfterwards⟩ := ih 0
      have nameRun : runAfter run name = 0 := run_after_idles idle nonempty run
      have soundName : Sound run (typed name) := sound_idles idle run false
      rw [mention?_append found, List.flatMap_cons, List.flatMap_append, sound_append,
        map_fst_marks, write_append, run_after_append, run_after_append, typed_append, sound_append,
        map_fst_typed, nameRun]
      simp only [Piece.segments, soundShown, runShown, soundAfter, runAfterwards, soundName,
        true_and, and_true, Linkable, Along, Piece.source, Piece.link?, nameRun]
      exact and_left_comm
  | case3 c rest missing ih =>
      obtain ⟨soundRest, runRest⟩ := ih (nextRun run c)
      have linkable : Linkable lookup run (.plain c :: pieces rest) ↔
          Linkable lookup (nextRun run c) (pieces rest) := and_iff_right (by simp [Piece.link?])
      have source : Sound run (typed (c :: rest)) ↔
          Rightly run (c, false) ∧ Sound (nextRun run c) (typed rest) := Iff.rfl
      have written :
          Sound run (((Piece.plain c :: pieces rest).flatMap (Piece.segments lookup)).flatMap
            marks) ↔
          Rightly run (c, false) ∧ Sound (nextRun run c)
            (((pieces rest).flatMap (Piece.segments lookup)).flatMap marks) := Iff.rfl
      rw [written, source, linkable, soundRest, and_assoc]
      exact ⟨Iff.rfl, runRest⟩

/-- On a line, no bracket and no link stands behind a run of backslashes that turns its part
around. -/
def LineHarmless (lookup : Lookup) (line : List Char) : Prop :=
  Escapable 0 line ∧ Linkable lookup 0 (pieces (escapeText line))

theorem sound_line {lookup : Lookup} (worded : Worded lookup) (line : List Char) :
    (Sound 0 ((lineSegments lookup line).flatMap marks) ↔ LineHarmless lookup line) ∧
      runAfter 0 (write (lineSegments lookup line)) = runAfter 0 line := by
  obtain ⟨soundMarked, runMarked⟩ :=
    sound_mark_segments ((pieces (escapeText line)).flatMap (Piece.segments lookup))
  obtain ⟨soundPieces, runPieces⟩ := sound_pieces worded 0 (escapeText line)
  obtain ⟨soundEscaped, runEscaped⟩ := sound_escape_text line
  constructor
  · rw [lineSegments, soundMarked, soundPieces, soundEscaped, LineHarmless]
  · rw [lineSegments, runMarked, runPieces, runEscaped]

def softBreak : List Char :=
  "<br>".toList

/-- The Markdown of entries, character by character. What stands between two of them was
generated. -/
def layoutMarks (lookup : Lookup) : (started listed : Bool) → List Entry → List Mark
  | _, _, [] => []
  | started, listed, entry :: rest =>
      generated (if started then entry.separator else []) ++ typed (entry.bullet listed) ++
        (lineSegments lookup entry.text).flatMap marks ++
          layoutMarks lookup true (listed || entry.isArgument) rest

theorem map_fst_layout_marks (lookup : Lookup) (started listed : Bool) (entries : List Entry) :
    (layoutMarks lookup started listed entries).map Prod.fst =
      layout lookup started listed entries := by
  rw [← write_layout_segments]
  induction entries generalizing started listed with
  | nil => rfl
  | cons entry rest ih =>
      simp only [layoutMarks, layoutSegments, List.map_append, map_fst_generated, map_fst_typed,
        map_fst_marks, ih, write_append, write_plains]

theorem separator_cases (entry : Entry) : entry.separator = softBreak ∨
    (entry.separator ≠ softBreak ∧ entry.separator ≠ [] ∧
      ∀ c ∈ entry.separator, isIdle c = true) := by
  unfold Entry.separator
  split_ifs
  · exact Or.inr ⟨by decide, by decide, List.all_eq_true.1 (by decide)⟩
  · exact Or.inr ⟨by decide, by decide, List.all_eq_true.1 (by decide)⟩
  · exact Or.inl rfl

theorem sound_separator (entry : Entry) (run : Nat) :
    (Sound run (generated entry.separator) ↔ (entry.separator = softBreak → Even run)) ∧
      runAfter run entry.separator = 0 := by
  rcases separator_cases entry with soft | ⟨other, nonempty, idle⟩
  · have opening : Rightly run ('<', true) ↔ Even run := by simp [Rightly, isBracket]
    have closing : Sound 0 [('b', true), ('r', true), ('>', true)] := by
      simp [Sound, Along, Rightly, isBracket, nextRun]
    rw [soft]
    refine ⟨?_, rfl⟩
    exact ((and_iff_left closing).trans opening).trans ⟨fun even _ => even,
      fun implied => implied rfl⟩
  · exact ⟨iff_of_true (sound_idles idle run true) fun same => absurd same other,
      run_after_idles idle nonempty run⟩

theorem bullet_idle (entry : Entry) (listed : Bool) :
    ∀ c ∈ entry.bullet listed, isIdle c = true := by
  unfold Entry.bullet argumentsHeading
  cases listed <;> split_ifs <;> exact List.all_eq_true.1 (by decide)

/-- A line is read behind what the separator and the bullet leave, which is no backslash. -/
theorem sound_entry {lookup : Lookup} (worded : Worded lookup) (listed : Bool) (entry : Entry)
    (rest : List Mark) :
    Sound 0 (typed (entry.bullet listed) ++
      (lineSegments lookup entry.text).flatMap marks ++ rest) ↔
      LineHarmless lookup entry.text ∧ Sound (runAfter 0 entry.text) rest := by
  have bulletRun : runAfter 0 (entry.bullet listed) = 0 := by
    by_cases empty : entry.bullet listed = []
    · rw [empty]
      rfl
    · exact run_after_idles (bullet_idle entry listed) empty 0
  have soundBullet : Sound 0 (typed (entry.bullet listed)) :=
    sound_idles (bullet_idle entry listed) 0 false
  obtain ⟨soundLine, runLine⟩ := sound_line worded entry.text
  rw [sound_append, sound_append, List.map_append, map_fst_typed, map_fst_marks, run_after_append,
    bulletRun, runLine, soundLine]
  exact and_congr_left fun _ => and_iff_right soundBullet

theorem sound_layout {lookup : Lookup} (worded : Worded lookup) (run : Nat) (listed : Bool)
    (entries : List Entry) :
    Sound run (layoutMarks lookup true listed entries) ↔
      Along (fun _ entry => runAfter 0 entry.text) (fun run entry => entry.separator = softBreak →
        Even run) run entries ∧
        ∀ entry ∈ entries, LineHarmless lookup entry.text := by
  induction entries generalizing run listed with
  | nil => simp [layoutMarks, Sound, Along]
  | cons entry rest ih =>
      obtain ⟨soundSeparator, runSeparator⟩ := sound_separator entry run
      rw [layoutMarks, if_pos rfl, List.append_assoc, List.append_assoc, sound_append,
        map_fst_generated, runSeparator, soundSeparator, ← List.append_assoc, sound_entry worded,
        ih, Along, List.forall_mem_cons]
      constructor
      · rintro ⟨own, line, later, lines⟩
        exact ⟨⟨own, later⟩, line, lines⟩
      · rintro ⟨⟨own, later⟩, line, lines⟩
        exact ⟨own, line, later, lines⟩

theorem along_previous {Item State : Type} (state : Item → State) (holds : State → Item → Prop)
    (first : Item) (rest : List Item) : Along (fun _ item => state item) holds (state first) rest ↔
      (first :: rest).IsChain fun previous item => holds (state previous) item := by
  induction rest generalizing first with
  | nil => simp [Along]
  | cons next others ih => rw [Along, ih, List.isChain_cons_cons]

/-- Where brackets may be turned around: a bracket behind backslashes that are even in number but
not none is left unescaped, a link behind backslashes that are odd in number has its bracket
escaped, and a break behind a line that ends so has it too. In harmless text none of the three
occurs. -/
structure IsHarmless (table : Symbol.Table) (text : String) : Prop where
  brackets : ∀ entry ∈ entries text.toList, ∀ before c after, entry.text = before ++ c :: after →
    isBracket c = true → backslashes before = 0 ∨ Odd (backslashes before)
  links : ∀ entry ∈ entries text.toList, ∀ before piece after, pieces (escapeText entry.text) =
    before ++ piece :: after →
    (piece.link? (Lookup.ofTable table)).isSome = true →
      Even (backslashes (before.flatMap Piece.source))
  breaks : (entries text.toList).IsChain fun entry next =>
    next.separator = softBreak → Even (backslashes entry.text)

theorem run_of_pieces (run : Nat) (pieces : List Piece) :
    pieces.foldl (fun run piece => runAfter run piece.source) run =
      runAfter run (pieces.flatMap Piece.source) := by
  induction pieces generalizing run with
  | nil => rfl
  | cons piece rest ih => rw [List.foldl_cons, ih, List.flatMap_cons, run_after_append]

theorem line_harmless_iff (lookup : Lookup) (line : List Char) : LineHarmless lookup line ↔
    (∀ before c after, line = before ++ c :: after → isBracket c = true →
      backslashes before = 0 ∨ Odd (backslashes before)) ∧
    ∀ before piece after, pieces (escapeText line) = before ++ piece :: after →
      (piece.link? lookup).isSome = true → Even (backslashes (before.flatMap Piece.source)) := by
  rw [LineHarmless, Escapable, along_iff, Linkable, along_iff]
  simp only [run_of_pieces, backslashes_eq_run]
  rfl

/-- The Markdown of a text, character by character, and whether each belongs to a link or to what
stands between two lines. -/
def markdownMarks (table : Symbol.Table) (text : String) : List Mark :=
  layoutMarks (Lookup.ofTable table) false false (entries text.toList)

theorem sound_markdown_iff {table : Symbol.Table} (worded : Worded (Lookup.ofTable table))
    (text : String) :
    Sound 0 (markdownMarks table text) ↔ IsHarmless table text := by
  have unfolded : IsHarmless table text ↔
      (∀ entry ∈ entries text.toList, LineHarmless (Lookup.ofTable table) entry.text) ∧
      (entries text.toList).IsChain fun entry next => next.separator = softBreak →
        Even (runAfter 0 entry.text) := by
    simp only [line_harmless_iff, ← backslashes_eq_run]
    constructor
    · rintro ⟨brackets, links, breaks⟩
      exact ⟨fun entry member => ⟨brackets entry member, links entry member⟩, breaks⟩
    · rintro ⟨lines, breaks⟩
      exact ⟨fun entry member => (lines entry member).1,
        fun entry member => (lines entry member).2, breaks⟩
  rw [unfolded, markdownMarks]
  cases entries text.toList with
  | nil => simp [layoutMarks, Sound, Along]
  | cons first rest =>
      have start : generated (if false = true then first.separator else []) = [] := rfl
      rw [layoutMarks, start, List.nil_append, sound_entry worded, sound_layout worded,
        along_previous (fun entry : Entry => runAfter 0 entry.text), List.forall_mem_cons]
      constructor
      · rintro ⟨own, chain, lines⟩
        exact ⟨⟨own, lines⟩, chain⟩
      · rintro ⟨⟨own, lines⟩, chain⟩
        exact ⟨own, chain, lines⟩

def IsWordText (text : String) : Prop :=
  ∀ c ∈ text.toList, isWord c = true ∨ c = '.'

theorem special_of_not_idle {c : Char} (notIdle : ¬isIdle c = true) :
    (((c = '[' ∨ c = ']') ∨ c = '<') ∨ c = '>') ∨ c = '\\' := by
  have either : isBracket c = true ∨ c = '\\' := by
    by_cases bracket : isBracket c = true
    · exact Or.inl bracket
    · simpa [isIdle, bracket] using notIdle
  simpa [isBracket] using either

theorem word_idle {c : Char} (word : isWord c = true ∨ c = '.') : isIdle c = true := by
  rcases word with word | rfl
  · by_contra notIdle
    rcases special_of_not_idle notIdle with (((rfl | rfl) | rfl) | rfl) | rfl
      <;> exact absurd word (by decide +kernel)
  · decide

theorem worded_of_table {table : Symbol.Table}
    (words : ∀ anchor ∈ table.values, IsWordText anchor) :
    Worded (Lookup.ofTable table) := by
  intro name anchor found c member
  obtain ⟨known, registered, rfl⟩ := Option.map_eq_some_iff.1 found
  exact word_idle (words known (Index.mem_values registered) c member)

/-- In the Markdown of a text, the live brackets are those of links and of breaks between lines, if
and only if the text is harmless. -/
theorem live_brackets_generated_iff {table : Symbol.Table}
    (words : ∀ anchor ∈ table.values, IsWordText anchor) (text : String) :
    (markdownMarks table text).map Prod.fst = (transform table text).toList ∧
      ((∀ before c isGenerated after,
          markdownMarks table text = before ++ (c, isGenerated) :: after →
          isBracket c = true → (IsLive (before.map Prod.fst) ↔ isGenerated = true)) ↔
        IsHarmless table text) := by
  constructor
  · rw [markdownMarks, map_fst_layout_marks, transform, String.toList_ofList]
    rfl
  · rw [← sound_iff, sound_markdown_iff (worded_of_table words)]

/-- Escaped brackets, typed or not, a link behind two backslashes, and a line that ends with two. -/
theorem even_runs_are_harmless :
    let table : Symbol.Table := ⟨[("fz_a", "fz_a")]⟩
    let text := "[fz_a] \\<b>\\\\fz_as \\\\\nc <d>"
    (∀ anchor ∈ table.values, IsWordText anchor) ∧ IsHarmless table text ∧
      (markdownMarks table text).map Prod.fst = (transform table text).toList ∧
      ∀ before c isGenerated after, markdownMarks table text = before ++ (c, isGenerated) :: after →
        isBracket c = true → (IsLive (before.map Prod.fst) ↔ isGenerated = true) := by
  intro table text
  have words : ∀ anchor ∈ table.values, IsWordText anchor := by
    have checked :
        (table.values.all fun anchor => anchor.toList.all fun c => isWord c || c == '.') =
        true := by
      decide +kernel
    simp only [List.all_eq_true, Bool.or_eq_true, beq_iff_eq] at checked
    exact checked
  have harmless : IsHarmless table text := by
    apply (sound_markdown_iff (worded_of_table words) text).1
    unfold Sound Rightly
    decide +kernel
  obtain ⟨whole, live⟩ := live_brackets_generated_iff words text
  exact ⟨words, harmless, whole, live.2 harmless⟩

/-- Behind two backslashes a typed bracket is left unescaped, although it is not escaped. -/
theorem typed_bracket_is_live :
    ¬∀ (table : Symbol.Table) (text : String),
      (∀ entry ∈ table.entries, IsWordText entry.1 ∧ IsWordText entry.2) →
        ∀ before c isGenerated after, markdownMarks table text = before ++
          (c, isGenerated) :: after →
          isBracket c = true → (IsLive (before.map Prod.fst) ↔ isGenerated = true) := by
  intro claimed
  have written : markdownMarks {} "\\\\[x]" = typed ['\\', '\\'] ++ ('[', false) ::
      typed ['x', '\\', ']'] := by
    decide +kernel
  have live : IsLive ['\\', '\\'] := by
    rw [IsLive, backslashes_eq_run]
    decide
  have generated := (claimed {} "\\\\[x]" (by simp) _ _ _ _ written rfl).1 live
  exact absurd generated (by decide)

end HeaderDocs.Comment
