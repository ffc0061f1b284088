import HeaderDocs.Proofs.Comment.Links
import Mathlib.Data.List.Infix

/-!
Where mentions are and how they are shown. A mention knows no word boundaries: it starts at the
first place of a run of letters, underscores and stars where it can and reaches to the end of the
run. So a name is shown as a whole if no other mention starts before it in its run and nothing cuts
it; a digit does, and so does a `NULL` that is set as code.
-/

namespace HeaderDocs.Comment

open Text Declaration Segment

set_option autoImplicit false

def startsMention : List Char → Bool
  | f :: z :: '_' :: first :: _ =>
      (f == 'f' || f == 'F') && (z == 'z' || z == 'Z') && isMentionChar first
  | _ => false

def IsRun (run : List Char) : Prop :=
  ∀ c ∈ run, isMentionChar c = true

/-- A text that no run before it reaches into. -/
def IsApart (rest : List Char) : Prop :=
  ∀ c, rest.head? = some c → isMentionChar c = false

/-- A line scanned for mentions: characters outside of runs stand for themselves, and so does a run
where no mention starts. In any other run the mention reaches from the first place where one starts
to the end. -/
inductive Scanned (lookup : Lookup) : List Char → List Segment → Prop
  | ends : Scanned lookup [] []
  | outside {c : Char} {rest : List Char} {segments : List Segment}
      (other : isMentionChar c = false)
      (later : Scanned lookup rest segments) : Scanned lookup (c :: rest) (.plain c :: segments)
  | silent {run rest : List Char} {segments : List Segment} (isRun : IsRun run)
      (nonempty : run ≠ [])
      (apart : IsApart rest) (silence : ∀ lead name, run = lead ++ name →
        startsMention name = false)
      (later : Scanned lookup rest segments) : Scanned lookup (run ++ rest) (plains run ++ segments)
  | mention {lead name rest : List Char} {shown : Shown} {segments : List Segment}
      (isRun : IsRun (lead ++ name))
      (apart : IsApart rest) (starts : startsMention name = true)
      (first : ∀ front back, lead = front ++ back → back ≠ [] →
        startsMention (back ++ name) = false)
      (isShown : ShownAs lookup name shown) (later : Scanned lookup rest segments) :
      Scanned lookup (lead ++ name ++ rest) (plains lead ++ shown.segments ++ segments)

theorem starts_mention_eq_true {text : List Char} (starts : startsMention text = true) :
    ∃ f z first rest, text = f :: z :: '_' :: first :: rest ∧ isMentionChar f = true ∧
      isMentionChar z = true ∧
      isMentionChar first = true := by
  unfold startsMention at starts
  split at starts
  · rename_i f z first rest
    simp only [Bool.and_eq_true, Bool.or_eq_true, beq_iff_eq] at starts
    obtain ⟨⟨isF, isZ⟩, isFirst⟩ := starts
    refine ⟨f, z, first, rest, rfl, ?_, ?_, isFirst⟩
    · rcases isF with rfl | rfl <;> decide
    · rcases isZ with rfl | rfl <;> decide
  · simp at starts

theorem head_of_starts_mention {text : List Char} (starts : startsMention text = true) :
    text.head? = some 'f' ∨ text.head? = some 'F' := by
  unfold startsMention at starts
  split at starts
  · simp only [Bool.and_eq_true, Bool.or_eq_true, beq_iff_eq] at starts
    exact starts.1.1.imp (congrArg some) (congrArg some)
  · simp at starts

theorem mention_eq (text : List Char) : mention? text =
    if startsMention text then some (text.takeWhile isMentionChar, text.dropWhile isMentionChar)
      else none := by
  cases starts : startsMention text with
  | true =>
      obtain ⟨f, z, first, rest, rfl, isF, isZ, isFirst⟩ := starts_mention_eq_true starts
      have underscore : isMentionChar '_' = true := by decide
      have given : ((f == 'f' || f == 'F') && (z == 'z' || z == 'Z') && isMentionChar first) =
          true := starts
      rw [mention?, if_pos given]
      simp [isF, isZ, isFirst, underscore]
  | false =>
      unfold mention?
      split
      · rename_i f z first rest
        have given : ((f == 'f' || f == 'F') && (z == 'z' || z == 'Z') && isMentionChar first) =
            false := starts
        rw [given]
        rfl
      · rfl

theorem starts_mention_append {text : List Char} (starts : startsMention text = true)
    (rest : List Char) :
    startsMention (text ++ rest) = true := by
  obtain ⟨f, z, first, others, rfl, -⟩ := starts_mention_eq_true starts
  exact starts

theorem starts_mention_of_append {text rest : List Char} (apart : IsApart rest)
    (starts : startsMention (text ++ rest) = true) : startsMention text = true := by
  obtain ⟨f, z, first, others, split, isF, isZ, isFirst⟩ := starts_mention_eq_true starts
  have inside {c : Char} {tail : List Char} (start : rest = c :: tail) : isMentionChar c = false :=
    apart c (by rw [start]; rfl)
  match text, split with
  | [], start => exact absurd isF (by simp [inside start])
  | [_], split => exact absurd isZ (by simp [inside (List.cons.inj split).2])
  | [_, _], split =>
      exact absurd (inside (List.cons.inj (List.cons.inj split).2).2) (by decide)
  | [_, _, _], split =>
      exact absurd isFirst
        (by simp [inside (List.cons.inj (List.cons.inj (List.cons.inj split).2).2).2])
  | a :: b :: c :: d :: tail, split =>
      simp only [List.cons_append, List.cons.injEq] at split
      obtain ⟨rfl, rfl, rfl, rfl, -⟩ := split
      exact starts

theorem take_run {run rest : List Char} (isRun : IsRun run) (apart : IsApart rest) :
    (run ++ rest).takeWhile isMentionChar = run ∧ (run ++ rest).dropWhile isMentionChar = rest := by
  rw [List.takeWhile_append_of_pos isRun, List.dropWhile_append_of_pos isRun]
  cases rest with
  | nil => simp
  | cons c others => simp [apart c rfl]

theorem mention_of_run {run rest : List Char} (isRun : IsRun run) (apart : IsApart rest)
    (starts : startsMention run = true) : mention? (run ++ rest) = some (run, rest) := by
  rw [mention_eq, if_pos (starts_mention_append starts rest), (take_run isRun apart).1,
    (take_run isRun apart).2]

theorem no_mention {text : List Char}
    (silent : startsMention text = false) : mention? text = none := by
  rw [mention_eq, silent]
  rfl

theorem pieces_mention {text name rest : List Char} (found : mention? text = some (name, rest)) :
    pieces text = .mention name :: pieces rest := by
  cases text with
  | nil => simp [mention?] at found
  | cons c others =>
      rw [pieces]
      split
      · rename_i same
        rw [found] at same
        obtain ⟨rfl, rfl⟩ := same
        rfl
      · rename_i missing
        simp [found] at missing

theorem pieces_plain {c : Char} {rest : List Char} (missing : mention? (c :: rest) = none) :
    pieces (c :: rest) = .plain c :: pieces rest := by
  rw [pieces]
  split
  · rename_i found
    simp [missing] at found
  · rfl

/-- A run is plain, or else plain up to the first place where a mention starts. -/
theorem pieces_run {run rest : List Char} (isRun : IsRun run) (apart : IsApart rest) :
    (pieces (run ++ rest) = run.map .plain ++ pieces rest ∧
        ∀ lead name, run = lead ++ name → startsMention name = false) ∨
      ∃ lead name, run = lead ++ name ∧
        pieces (run ++ rest) = lead.map .plain ++ .mention name :: pieces rest ∧
        startsMention name = true ∧
        ∀ front back, lead = front ++ back → back ≠ [] → startsMention (back ++ name) = false := by
  induction run with
  | nil =>
      refine Or.inl ⟨rfl, fun lead name empty => ?_⟩
      rw [(List.append_eq_nil_iff.1 empty.symm).2]
      rfl
  | cons c others ih =>
      have isRunOthers : IsRun others := fun d member => isRun d (List.mem_cons_of_mem _ member)
      cases starts : startsMention (c :: others) with
      | true =>
          refine Or.inr ⟨[], c :: others, rfl, pieces_mention (mention_of_run isRun apart starts),
            starts, ?_⟩
          intro front back empty nonempty
          exact absurd (List.append_eq_nil_iff.1 empty.symm).2 nonempty
      | false =>
          have missing : mention? (c :: (others ++ rest)) = none := by
            apply no_mention
            by_contra started
            rw [Bool.not_eq_false, ← List.cons_append] at started
            simp [starts_mention_of_append apart started] at starts
          have start : pieces (c :: others ++ rest) = .plain c :: pieces (others ++ rest) :=
            pieces_plain missing
          rcases ih isRunOthers with ⟨plain, silence⟩ | ⟨lead, name, split, shown, found, first⟩
          · refine Or.inl ⟨by rw [start, plain]; rfl, fun lead name split => ?_⟩
            cases lead with
            | nil =>
                rw [List.nil_append] at split
                rw [← split, starts]
            | cons d further => exact silence further name (List.cons.inj split).2
          · refine Or.inr ⟨c :: lead, name, by rw [split]; rfl, by
              rw [start, shown]; rfl, found, ?_⟩
            intro front back divided nonempty
            cases front with
            | nil =>
                rw [List.nil_append] at divided
                rw [← divided, List.cons_append, ← split, starts]
            | cons d further => exact first further back (List.cons.inj divided).2 nonempty

theorem segments_of_plains (lookup : Lookup) (text : List Char) :
    (text.map Piece.plain).flatMap (Piece.segments lookup) = plains text := by
  rw [List.flatMap_map, plains, List.map_eq_flatMap]
  rfl

theorem scanned_pieces (lookup : Lookup) (text : List Char) :
    Scanned lookup text ((pieces text).flatMap (Piece.segments lookup)) := by
  match text with
  | [] =>
      rw [pieces]
      exact .ends
  | c :: rest =>
      cases inside : isMentionChar c with
      | false =>
          have silent : startsMention (c :: rest) = false := by
            by_contra started
            rw [Bool.not_eq_false] at started
            obtain ⟨f, z, first, others, split, isF, -⟩ := starts_mention_eq_true started
            rw [← (List.cons.inj split).1, inside] at isF
            exact absurd isF (by decide)
          rw [pieces_plain (no_mention silent)]
          exact .outside inside (scanned_pieces lookup rest)
      | true =>
          have later := scanned_pieces lookup ((c :: rest).dropWhile isMentionChar)
          have isRun : IsRun ((c :: rest).takeWhile isMentionChar) :=
            fun d member => List.all_eq_true.1 List.all_takeWhile d member
          have apart : IsApart ((c :: rest).dropWhile isMentionChar) := by
            intro d head
            have stopped := List.head?_dropWhile_not isMentionChar (c :: rest)
            simpa [head] using stopped
          have nonempty : (c :: rest).takeWhile isMentionChar ≠ [] := by simp [inside]
          have whole : c :: rest = (c :: rest).takeWhile isMentionChar ++
              (c :: rest).dropWhile isMentionChar := List.takeWhile_append_dropWhile.symm
          generalize (c :: rest).takeWhile isMentionChar = run at isRun nonempty whole
          generalize (c :: rest).dropWhile isMentionChar = after at later apart whole
          rw [whole]
          rcases pieces_run isRun apart
            with ⟨plain, silence⟩ | ⟨lead, name, rfl, shown, starts, first⟩
          · rw [plain, List.flatMap_append, segments_of_plains]
            exact .silent isRun nonempty apart silence later
          · rw [shown, List.flatMap_append, segments_of_plains, List.flatMap_cons,
              ← List.append_assoc]
            exact .mention isRun apart starts first (shown_as lookup name) later
termination_by text.length
decreasing_by
  · simp
  · rw [List.dropWhile_cons_of_pos inside]
    exact Nat.lt_succ_of_le (List.dropWhile_suffix _).length_le

/-- No mention starts in the run that a text ends with and reaches from there into a name. -/
def IsFirst (before name : List Char) : Prop :=
  ∀ front back, before = front ++ back → back ≠ [] → IsRun back →
    startsMention (back ++ name) = false

theorem is_first_of_outside {before : List Char}
    (outside : ∀ c, before.getLast? = some c → isMentionChar c = false)
    (name : List Char) : IsFirst before name := by
  intro front back split nonempty isRun
  have last : before.getLast? = some (back.getLast nonempty) := by
    rw [split, List.getLast?_append_of_ne_nil front nonempty,
      List.getLast?_eq_some_getLast nonempty]
  have inside := isRun _ (List.getLast_mem nonempty)
  rw [outside _ last] at inside
  exact absurd inside Bool.false_ne_true

theorem is_first_of_append {front back name : List Char} (first : IsFirst (front ++ back) name) :
    IsFirst back name := by
  intro left right split nonempty isRun
  exact first (front ++ left) right (by rw [split, List.append_assoc]) nonempty isRun

theorem run_of_start {text name rest : List Char} (long : 4 ≤ name.length)
    (silent : startsMention text = false) (starts : startsMention (text ++ (name ++ rest)) = true) :
    IsRun text ∧ startsMention (text ++ name) = true := by
  obtain ⟨f, z, first, others, split, isF, isZ, -⟩ := starts_mention_eq_true starts
  have underscore : isMentionChar '_' = true := by decide
  obtain ⟨a, b, c, d, tail, rfl⟩ : ∃ a b c d tail, name = a :: b :: c :: d :: tail := by
    match name, long with
    | a :: b :: c :: d :: tail, _ => exact ⟨a, b, c, d, tail, rfl⟩
  rw [split] at starts
  match text, split with
  | [], split =>
      simp only [List.nil_append, List.cons_append, List.cons.injEq] at split
      obtain ⟨rfl, rfl, rfl, rfl, -⟩ := split
      exact ⟨by simp [IsRun], starts⟩
  | [_], split =>
      simp only [List.nil_append, List.cons_append, List.cons.injEq] at split
      obtain ⟨rfl, rfl, rfl, rfl, -⟩ := split
      exact ⟨by simp [IsRun, isF], starts⟩
  | [_, _], split =>
      simp only [List.nil_append, List.cons_append, List.cons.injEq] at split
      obtain ⟨rfl, rfl, rfl, rfl, -⟩ := split
      exact ⟨by simp [IsRun, isF, isZ], starts⟩
  | [_, _, _], split =>
      simp only [List.nil_append, List.cons_append, List.cons.injEq] at split
      obtain ⟨rfl, rfl, rfl, rfl, -⟩ := split
      exact ⟨by simp [IsRun, isF, isZ, underscore], starts⟩
  | _ :: _ :: _ :: _ :: _, split =>
      simp only [List.cons_append, List.cons.injEq] at split
      obtain ⟨rfl, rfl, rfl, rfl, -⟩ := split
      exact absurd starts (by rw [← Bool.not_eq_true] at silent; exact silent)

theorem starts_mention_long {name : List Char}
    (starts : startsMention name = true) : 4 ≤ name.length := by
  obtain ⟨f, z, first, rest, rfl, -⟩ := starts_mention_eq_true starts
  simp

theorem run_of_mention {text name rest : List Char} (found : mention? text = some (name, rest)) :
    IsRun name ∧ IsApart rest ∧ startsMention name = true := by
  have whole := mention?_append found
  rw [mention_eq] at found
  split at found
  · rename_i starts
    simp only [Option.some.injEq, Prod.mk.injEq] at found
    obtain ⟨sameName, sameRest⟩ := found
    have apart : IsApart rest := by
      intro c head
      have stopped := List.head?_dropWhile_not isMentionChar text
      rw [sameRest, head] at stopped
      simpa using stopped
    refine ⟨fun c member => ?_, apart, ?_⟩
    · rw [← sameName] at member
      exact List.all_eq_true.1 List.all_takeWhile c member
    · rw [whole] at starts
      exact starts_mention_of_append apart starts
  · simp at found

/-- Around a mention, both sides are scanned by themselves. -/
theorem pieces_around {before name after : List Char} (isRun : IsRun name)
    (starts : startsMention name = true) (apart : IsApart after) (first : IsFirst before name) :
    pieces (before ++ (name ++ after)) = pieces before ++ .mention name :: pieces after := by
  fun_induction pieces before with
  | case1 => exact pieces_mention (mention_of_run isRun apart starts)
  | case2 c rest other remaining found ih =>
      have whole := mention?_append found
      obtain ⟨isRunOther, apartRemaining, startsOther⟩ := run_of_mention found
      rw [whole] at first ⊢
      have apartAll : IsApart (remaining ++ (name ++ after)) := by
        cases remaining with
        | nil =>
            -- The mention before would reach into the name.
            have nonempty : other ≠ [] := by
              rintro rfl
              simp [startsMention] at startsOther
            have silent := first [] other (by simp) nonempty isRunOther
            rw [starts_mention_append startsOther] at silent
            simp at silent
        | cons d further => exact apartRemaining
      rw [List.append_assoc, pieces_mention (mention_of_run isRunOther apartAll startsOther),
        ih (is_first_of_append first), List.cons_append]
  | case3 c rest missing ih =>
      have silent : startsMention (c :: rest) = false := by
        by_contra started
        rw [Bool.not_eq_false] at started
        rw [mention_eq, if_pos started] at missing
        simp at missing
      have noMention : mention? (c :: (rest ++ (name ++ after))) = none := by
        apply no_mention
        by_contra started
        rw [Bool.not_eq_false, ← List.cons_append] at started
        obtain ⟨isRunHead, reaches⟩ := run_of_start (starts_mention_long starts) silent started
        rw [first [] (c :: rest) rfl (by simp) isRunHead] at reaches
        simp at reaches
      have firstRest : IsFirst rest name :=
        is_first_of_append (show IsFirst ([c] ++ rest) name from first)
      rw [List.cons_append, pieces_plain noMention, ih firstRest, List.cons_append]

theorem escape_brackets_append {left : List Char} (plain : '\\' ∉ left) (right : List Char) :
    escapeBrackets false (left ++ right) = escapeBrackets false left ++
      escapeBrackets false right := by
  induction left with
  | nil => rfl
  | cons c rest ih =>
      simp only [List.mem_cons, not_or] at plain
      have other : (c == '\\') = false := by simpa using fun same => plain.1 same.symm
      rw [List.cons_append, escapeBrackets, escapeBrackets, other, ih plain.2]
      split <;> rfl

theorem code_nulls_cons {c : Char} {rest : List Char}
    (other : ∀ tail, c = 'N' → rest = 'U' :: 'L' :: 'L' :: tail → False) (afterTick : Bool) :
    codeNulls afterTick (c :: rest) = c :: codeNulls (c == '\x60') rest := by
  rw [codeNulls]
  exact other

theorem code_nulls_null {rest : List Char} (alone : rest.head? ≠ some '\x60') :
    codeNulls false ('N' :: 'U' :: 'L' :: 'L' :: rest) =
      '\x60' :: 'N' :: 'U' :: 'L' :: 'L' :: '\x60' :: codeNulls false rest := by
  rw [codeNulls, if_pos]
  simpa using alone

theorem head_ne_of_not_mem {c : Char} {text : List Char}
    (absent : c ∉ text) : text.head? ≠ some c :=
  fun head => absent (List.mem_of_mem_head? head)

theorem code_nulls_append {left right : List Char} (tickless : '\x60' ∉ left ++ right)
    (notU : right.head? ≠ some 'U') (notL : right.head? ≠ some 'L') :
    codeNulls false (left ++ right) = codeNulls false left ++ codeNulls false right := by
  generalize noTick : false = afterTick
  rw [← noTick]
  fun_induction codeNulls afterTick left with
  | case1 afterTick rest alone ih =>
      have ticklessRest : '\x60' ∉ rest ++ right := fun member => tickless (by simp [member])
      have ticklessLeft : '\x60' ∉ rest :=
        fun member => ticklessRest (List.mem_append_left right member)
      rw [List.cons_append, List.cons_append, List.cons_append, List.cons_append,
        code_nulls_null (head_ne_of_not_mem ticklessRest),
        code_nulls_null (head_ne_of_not_mem ticklessLeft), ih ticklessRest rfl]
      rfl
  | case2 afterTick rest beside ih =>
      have ticklessRest : '\x60' ∉ rest := fun member => tickless (by simp [member])
      exact absurd beside (by simpa [← noTick] using head_ne_of_not_mem ticklessRest)
  | case3 afterTick c rest other ih =>
      have ticklessRest : '\x60' ∉ rest ++ right :=
        fun member => tickless (by simp [List.mem_append.1 member])
      have noTickHere : (c == '\x60') = false := by
        have differs : c ≠ '\x60' := by
          rintro rfl
          exact tickless (by simp)
        simpa using differs
      have otherWhole : ∀ tail, c = 'N' → rest ++ right = 'U' :: 'L' :: 'L' :: tail → False := by
        intro tail isN split
        -- A `NULL` over the end of the left text would leave its rest to the head of the right one.
        rcases rest with _ | ⟨a, _ | ⟨b, _ | ⟨d, further⟩⟩⟩
        · exact notU (by rw [show right = _ from split]; rfl)
        · exact notL (by rw [show right = _ from (List.cons.inj split).2]; rfl)
        · exact notL (by rw [show right = _ from (List.cons.inj (List.cons.inj split).2).2]; rfl)
        · simp only [List.cons_append, List.cons.injEq] at split
          obtain ⟨rfl, rfl, rfl, -⟩ := split
          exact other further isN rfl
      rw [List.cons_append, code_nulls_cons otherWhole, code_nulls_cons other, noTickHere]
      rw [noTickHere] at ih
      rw [ih ticklessRest rfl, List.cons_append]
  | case4 => rfl

theorem code_nulls_eq_self {name : List Char} (unbroken : ¬ "NULL".toList <:+: name)
    (afterTick : Bool) :
    codeNulls afterTick name = name := by
  fun_induction codeNulls afterTick name with
  | case1 afterTick rest alone ih => exact absurd ⟨[], rest, rfl⟩ unbroken
  | case2 afterTick rest beside ih => exact absurd ⟨[], rest, rfl⟩ unbroken
  | case3 afterTick c rest other ih =>
      have unbrokenRest : ¬ "NULL".toList <:+: rest := fun inside =>
        unbroken (inside.trans (List.suffix_cons c rest).isInfix)
      rw [ih unbrokenRest]
  | case4 => rfl

theorem escape_brackets_run {run : List Char} (isRun : IsRun run) (escaped : Bool) :
    escapeBrackets escaped run = run := by
  induction run generalizing escaped with
  | nil => rfl
  | cons c rest ih =>
      have unbracketed := not_bracket_of_mention_char (isRun c List.mem_cons_self)
      have isRunRest : IsRun rest := fun d member => isRun d (List.mem_cons_of_mem c member)
      simp [escapeBrackets, unbracketed, ih isRunRest]

theorem mem_escape_brackets {c : Char} {escaped : Bool} {text : List Char} (other : c ≠ '\\')
    (member : c ∈ escapeBrackets escaped text) : c ∈ text := by
  fun_induction escapeBrackets escaped text with
  | case1 => exact member
  | case2 escaped d rest bracket ih =>
      simp only [List.mem_cons, other, false_or] at member
      exact List.mem_cons.2 (member.imp_right ih)
  | case3 escaped d rest kept ih => exact List.mem_cons.2 ((List.mem_cons.1 member).imp_right ih)

theorem apart_escape_brackets {after : List Char} (apart : IsApart after) (escaped : Bool) :
    IsApart (escapeBrackets escaped after) := by
  cases after with
  | nil => exact apart
  | cons c rest =>
      intro d head
      rw [escapeBrackets] at head
      split at head
      · obtain rfl : '\\' = d := by simpa using head
        decide
      · exact apart d head

theorem apart_code_nulls {after : List Char} (apart : IsApart after) (afterTick : Bool) :
    IsApart (codeNulls afterTick after) := by
  fun_cases codeNulls afterTick after with
  | case1 rest alone => exact absurd (apart 'N' rfl) (by decide)
  | case2 rest beside => exact absurd (apart 'N' rfl) (by decide)
  | case3 c rest other => exact apart
  | case4 => exact apart

/-- Without backticks and backslashes, a name of letters is escaped to itself, and its sides by
themselves. -/
theorem escape_text_around {before name after : List Char}
    (plain : '\\' ∉ before ++ (name ++ after)) (tickless : '\x60' ∉ before ++ (name ++ after))
    (starts : startsMention name = true) (isRun : IsRun name) (unbroken : ¬ "NULL".toList <:+: name)
    (apart : IsApart after) :
    escapeText (before ++ (name ++ after)) = escapeText before ++ (name ++ escapeText after) := by
  have plainBefore : '\\' ∉ before := fun member => plain (List.mem_append_left _ member)
  have plainName : '\\' ∉ name := fun member => plain (by simp [member])
  have brackets : escapeBrackets false (before ++ (name ++ after)) =
      escapeBrackets false before ++ (name ++ escapeBrackets false after) := by
    rw [escape_brackets_append plainBefore, escape_brackets_append plainName,
      escape_brackets_run isRun]
  have ticklessWhole : '\x60' ∉ escapeBrackets false before ++
      (name ++ escapeBrackets false after) := by
    rw [← brackets]
    exact fun member => tickless (mem_escape_brackets (by decide) member)
  have ticklessRight : '\x60' ∉ name ++ escapeBrackets false after :=
    fun member => ticklessWhole (List.mem_append_right _ member)
  have apartBrackets := apart_escape_brackets apart false
  have headName : ∀ c : Char, c ≠ 'f' → c ≠ 'F' →
      (name ++ escapeBrackets false after).head? ≠ some c := by
    intro c notLower notUpper head
    rcases head_of_starts_mention (starts_mention_append starts (escapeBrackets false after))
      with lower | upper
    · exact notLower (Option.some.inj (head.symm.trans lower))
    · exact notUpper (Option.some.inj (head.symm.trans upper))
  have headAfter : ∀ c, isMentionChar c = true → (escapeBrackets false after).head? ≠ some c := by
    intro c inside head
    rw [apartBrackets c head] at inside
    exact Bool.false_ne_true inside
  rw [escapeText, brackets,
    code_nulls_append ticklessWhole (headName 'U' (by decide) (by decide))
      (headName 'L' (by decide) (by decide)),
    code_nulls_append ticklessRight (headAfter 'U' (by decide)) (headAfter 'L' (by decide)),
    code_nulls_eq_self unbroken]
  rfl

theorem apart_escape_text {after : List Char}
    (apart : IsApart after) : IsApart (escapeText after) :=
  apart_code_nulls (apart_escape_brackets apart false) false

theorem shown_marked (shown : Shown) (rest : List Segment) :
    ∀ segment, (shown.segments ++ rest).head? = some segment → isUnmarked segment = false := by
  intro segment head
  cases shown with
  | code name =>
      obtain rfl : Segment.plain '\x60' = segment := Option.some.inj head
      rfl
  | link name anchor =>
      obtain rfl : Segment.link name anchor = segment := Option.some.inj head
      rfl
  | plural singular anchor =>
      obtain rfl : Segment.link singular anchor = segment := Option.some.inj head
      rfl

/-- A name in a text without backticks and backslashes that nothing in the text cuts into: it starts
a mention, no mention starts before it in its run, none goes on behind it, and no `NULL` is set as
code in it. -/
structure StandsWhole (before name after : List Char) : Prop where
  plain : '\\' ∉ before ++ (name ++ after)
  tickless : '\x60' ∉ before ++ (name ++ after)
  isRun : IsRun name
  starts : startsMention name = true
  first : IsFirst (escapeText before) name
  apart : IsApart after
  unbroken : ¬ "NULL".toList <:+: name

/-- How a line is shown: scanned for mentions after its escapes, and then with its parameter names
marked, which stand before the first mention. A name that stands whole is shown as a whole, with its
sides scanned by themselves. -/
structure LineShown (lookup : Lookup) (line : List Char) (segments : List Segment) : Prop where
  scanned : ∃ opening rest, Scanned lookup (escapeText line) (plains opening ++ rest) ∧
    '\x60' ∉ opening ∧
    segments = plains (markParameters opening) ++ rest
  whole : ∀ before name after, line = before ++ (name ++ after) → StandsWhole before name after →
    ∃ front shown back, Scanned lookup (escapeText before) front ∧ ShownAs lookup name shown ∧
      Scanned lookup (escapeText after) back ∧
        segments = markSegments front ++ (shown.segments ++ back)

theorem line_shown (lookup : Lookup) (line : List Char) :
    LineShown lookup line (lineSegments lookup line) where
  scanned := by
    have scan := scanned_pieces lookup (escapeText line)
    obtain ⟨opening, rest, split, tickless, marked⟩ :=
      mark_segments_split ((pieces (escapeText line)).flatMap (Piece.segments lookup))
    rw [split] at scan
    exact ⟨opening, rest, scan, tickless, marked⟩
  whole := by
    rintro before name after rfl stands
    have escaped :=
      escape_text_around stands.plain stands.tickless stands.starts stands.isRun stands.unbroken
      stands.apart
    have split :=
      pieces_around stands.isRun stands.starts (apart_escape_text stands.apart) stands.first
    refine ⟨_, Shown.ofName lookup name, _, scanned_pieces lookup (escapeText before),
      shown_as lookup name, scanned_pieces lookup (escapeText after), ?_⟩
    rw [lineSegments, escaped, split, List.flatMap_append, List.flatMap_cons]
    exact mark_segments_append _ (shown_marked _ _)

/-- The Markdown of a text is that of its lines, and its links are theirs: those of mentions. Each
mention is shown by what the table knows of it, and so is each name that stands whole. -/
theorem mentions_shown (table : Symbol.Table) (text : String) :
    let lookup := Lookup.ofTable table
    let segments := layoutSegments lookup false false (entries text.toList)
    (transform table text).toList = write segments ∧
      segments.filterMap link? =
        ((entries text.toList).flatMap fun entry =>
          (lineSegments lookup entry.text).filterMap link?) ∧
      ∀ entry ∈ entries text.toList,
        LineShown lookup entry.text (lineSegments lookup entry.text) := by
  refine ⟨?_, links_layout_lines _ _ _ _, fun entry _ => line_shown _ entry.text⟩
  rw [transform, String.toList_ofList, textMarkdown, write_layout_segments]

theorem plural_between_words :
    let table : Symbol.Table := ⟨[("fz_a", "fz_a")]⟩
    let line := "Two fz_as, or (fz_b*)".toList
    ⟨false, 0, line⟩ ∈ entries line ∧
      StandsWhole "Two ".toList "fz_as".toList ", or (fz_b*)".toList ∧
      (∃ front shown back, Scanned (Lookup.ofTable table) "Two ".toList front ∧
        ShownAs (Lookup.ofTable table) "fz_as".toList shown ∧
        Scanned (Lookup.ofTable table) ", or (fz_b*)".toList back ∧
        lineSegments (Lookup.ofTable table) line = markSegments front ++ (shown.segments ++ back)) ∧
      transform table (String.ofList line) = "Two [\x60fz_a\x60](fz_a)s, or (\x60fz_b*\x60)" := by
  have stands : StandsWhole "Two ".toList "fz_as".toList ", or (fz_b*)".toList := by
    refine ⟨by decide, by decide, ?_, rfl, is_first_of_outside ?_ _, ?_, by decide⟩
    · have all : "fz_as".toList.all isMentionChar = true := by decide +kernel
      exact List.all_eq_true.1 all
    · intro c last
      have ending : (escapeText "Two ".toList).getLast? = some ' ' := by decide +kernel
      obtain rfl : ' ' = c := Option.some.inj (ending.symm.trans last)
      decide
    · intro c head
      obtain rfl : ',' = c := by simpa using head
      decide
  have listed :
      (⟨false, 0, "Two fz_as, or (fz_b*)".toList⟩ : Entry) ∈ entries
      "Two fz_as, or (fz_b*)".toList := by
    decide +kernel
  have unescaped : escapeText "Two ".toList = "Two ".toList ∧
      escapeText ", or (fz_b*)".toList = ", or (fz_b*)".toList := by decide +kernel
  obtain ⟨-, -, lines⟩ :=
    mentions_shown ⟨[("fz_a", "fz_a")]⟩ (String.ofList "Two fz_as, or (fz_b*)".toList)
  rw [String.toList_ofList] at lines
  have shown := (lines _ listed).whole _ _ _ (by decide) stands
  rw [unescaped.1, unescaped.2] at shown
  exact ⟨listed, stands, shown, by decide +kernel⟩

/-- A digit ends a mention, so only the front of a name with a digit is linked. -/
theorem digit_cuts_name :
    let table : Symbol.Table := ⟨[("fz_md", "fz_md"), ("fz_md5", "fz_md5")]⟩
    table.lookup? "fz_md5" = some "fz_md5" ∧
      transform table "fz_md5" = "[\x60fz_md\x60](fz_md)5" ∧
      transform table "fz_md5" ≠ String.ofList (codeLink "fz_md5".toList "fz_md5".toList) := by
  decide +kernel

end HeaderDocs.Comment
