import HeaderDocs.Proofs.Walk.Interruption
import HeaderDocs.Site.Pages

/-!
The walk of a site. A header that is missing or cannot be parsed is noted and leaves the walk as it
was; any other failure ends it. So what a finished walk has met is what one session meets that reads
the remaining headers, and the pages are made of that. Nothing is assumed of the files: the same
header may be named twice, or not be there.
-/

namespace HeaderDocs.Site

set_option autoImplicit false

open Walker

def Offers (workspace : Workspace) (cursor : Cursor) : Prop :=
  ∃ header ∈ workspace.headers.values, cursor ∈ header.cursors

theorem offers_of_shelf {workspace : Workspace} {path : String} {header : Header}
    (found : workspace.shelf path = some header) {cursor : Cursor}
    (member : cursor ∈ header.cursors) :
    Offers workspace cursor := by
  unfold Workspace.shelf at found
  split at found
  · cases known : workspace.headers.find? (Path.normalize path) with
    | none =>
        simp only [known, Option.getD_none, Option.some.injEq] at found
        simp [← found] at member
    | some other =>
        simp only [known, Option.getD_some, Option.some.injEq] at found
        subst found
        exact ⟨other, Index.mem_values known, member⟩
  · simp at found

namespace State

theorem walk_listed_step {reading : Reading} {root : String} {header : Value}
    {walker after : Walker} {workspace later : Workspace}
    (passed : walkListed reading root walker workspace header = (after, later, none)) :
    later.headers = workspace.headers ∧ (after = walker ∨
      ∃ path found, workspace.shelf path = some found ∧
        (reading.read workspace.shelf walker path).failure = none ∧
        (reading.read workspace.shelf walker path).walker = after) := by
  unfold walkListed at passed
  split at passed
  · rename_i name
    simp only at passed
    split at passed
    · simp only [Prod.mk.injEq, and_true] at passed
      obtain ⟨rfl, rfl⟩ := passed
      exact ⟨rfl, Or.inl rfl⟩
    · generalize Path.normalize (Path.join root name) = path at passed
      split at passed
      · rename_i succeeded
        simp only [Prod.mk.injEq, and_true] at passed
        obtain ⟨rfl, rfl⟩ := passed
        rcases read_cases reading workspace.shelf walker path with
          ⟨found, onShelf, -⟩ | ⟨failure, failed, -⟩ | ⟨_, _, _, _, _, _, failure, -, -, -, -,
            failed, -⟩
        · exact ⟨rfl, Or.inr ⟨path, found, onShelf, succeeded, rfl⟩⟩
        · simp [succeeded] at failed
        · simp [succeeded] at failed
      · rename_i failure failed
        split at passed
        · rename_i reported
          simp only [Prod.mk.injEq, and_true] at passed
          obtain ⟨rfl, rfl⟩ := passed
          refine ⟨rfl, Or.inl ?_⟩
          rcases read_cases reading workspace.shelf walker path with
            ⟨-, -, succeeded, -⟩ | ⟨-, -, -, same⟩ | ⟨_, _, _, _, _, _, cause, -, -, -, broken,
              caused, -⟩
          · simp [succeeded] at failed
          · exact same
          · obtain rfl : cause = failure := by simpa [caused] using failed
            simp [(broken_frame broken).2.2] at reported
        · simp at passed
  · simp at passed

theorem walk_headers_session {reading : Reading} {root : String} {headers : List Value}
    {walker after : Walker} {workspace final : Workspace}
    (finished : walkHeaders reading root walker workspace headers = (after, final, none)) :
    ∃ cursors, Session reading walker cursors after ∧
      ∀ cursor ∈ cursors, Offers workspace cursor := by
  induction headers generalizing walker workspace with
  | nil =>
      simp only [walkHeaders, Prod.mk.injEq, and_true] at finished
      rw [finished.1]
      exact ⟨[], .done after, by simp⟩
  | cons header rest ih =>
      rw [walkHeaders] at finished
      split at finished
      · rename_i next later passed
        obtain ⟨cursors, session, offered⟩ := ih finished
        obtain ⟨sameHeaders, skipped | ⟨path, found, onShelf, succeeded, read⟩⟩ :=
          walk_listed_step passed
        · rw [skipped] at session
          refine ⟨cursors, session, ?_⟩
          simpa only [Offers, sameHeaders] using offered
        · rw [← read] at session
          refine ⟨found.cursors ++ cursors, .read onShelf succeeded session, ?_⟩
          intro cursor member
          rcases List.mem_append.1 member with own | other
          · exact offers_of_shelf onShelf own
          · simpa only [Offers, sameHeaders] using offered cursor other
      · simp at finished

def walker (state : State) (workspace : Workspace) : Walker :=
  if workspace.tree.isDirectory state.root then
    match headers? workspace.tree state.root state.options,
      state.options.bind (reading? state.root) with
    | .ok headers, some reading => (walkHeaders reading state.root {} workspace headers).1
    | _, _ => {}
  else {}

/-- What a finished walk does: nothing but forget, if the directory of the headers is missing, else
pages of what the headers declare. -/
inductive Walked (state : State) (workspace : Workspace) : State → Walker → Prop
  | missing (absent : workspace.tree.isDirectory state.root = false) :
      Walked state workspace state.cleared {}
  | walked {headers : List Value} {options : Options} {reading : Reading} {walker : Walker}
      {final : Workspace}
      (listed : headers? workspace.tree state.root state.options = .ok headers)
      (given : state.options = some options) (readable : reading? state.root options = some reading)
      (ran : walkHeaders reading state.root {} workspace headers = (walker, final, none)) :
      Walked state workspace
        (withDeclarations options { state.cleared with symbols := walker.symbols }
          walker.declarations) walker

theorem walked_of_walk {state after : State} {workspace final : Workspace}
    (finished : state.walk workspace = (after, final, none)) :
    Walked state workspace after (state.walker workspace) := by
  unfold walk at finished
  simp only at finished
  split at finished
  · rename_i absent
    have missing : workspace.tree.isDirectory state.root = false := by simpa [cleared] using absent
    simp only [Prod.mk.injEq] at finished
    obtain ⟨rfl, -⟩ := finished
    have nothing : state.walker workspace = {} := by
      rw [State.walker, missing]
      rfl
    rw [nothing]
    exact .missing missing
  · rename_i present
    have directory : workspace.tree.isDirectory state.root = true := by
      simpa [cleared] using present
    split at finished
    · simp at finished
    · simp at finished
    · rename_i headers options listed given
      split at finished
      · simp at finished
      · rename_i reading readable
        split at finished
        · simp at finished
        · rename_i walker later ran
          simp only [Prod.mk.injEq] at finished
          obtain ⟨rfl, -⟩ := finished
          have same : state.walker workspace = walker := by
            have chosen : state.options = some options := given
            have read : reading? state.root options = some reading := readable
            have found : headers? workspace.tree state.root (some options) = .ok headers :=
              chosen ▸ listed
            simp only [State.walker, directory, if_true, chosen, found, Option.bind_some, read]
            exact congrArg Prod.fst ran
          rw [same]
          exact .walked listed given readable ran

theorem walked_session {state after : State} {workspace : Workspace} {walker : Walker}
    (walked : Walked state workspace after walker) :
    ∃ reading cursors, Session reading {} cursors walker ∧
      ∀ cursor ∈ cursors, Offers workspace cursor := by
  cases walked with
  | missing absent => exact ⟨{}, [], .done {}, by simp⟩
  | walked listed given readable ran =>
      obtain ⟨cursors, session, offered⟩ := walk_headers_session ran
      exact ⟨_, cursors, session, offered⟩

end State

end HeaderDocs.Site
