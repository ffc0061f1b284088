import HeaderDocs.Site.Pages
import Mathlib.Data.List.Induction

/-!
What the pages and anchors of a site hold. Declarations are filed one by one, yet the outcome can be
told at once: a page has the declarations of its address in their order, and an anchor leads to the
page of the first declaration that has it. The page that lists the others takes its address whether
or not another page stands there.
-/

namespace HeaderDocs.Site

set_option autoImplicit false

namespace State

theorem page_uri_inj {directory label other : String} :
    pageUri directory label = pageUri directory other ↔ label = other := by
  constructor
  · intro same
    have chars := congrArg String.toList same
    simp only [pageUri, String.toList_append, List.append_cancel_right_eq,
      List.append_cancel_left_eq] at chars
    exact String.toList_injective chars
  · exact congrArg (pageUri directory)

variable (directory : String)

def homeOf (directory root : String) (declaration : Declaration) : String :=
  pageUri directory (pageLabel root declaration.file)

def residents (directory root uri : String) (declarations : List Declaration) : List Declaration :=
  declarations.filter fun declaration => homeOf directory root declaration = uri

theorem residents_append (directory root uri : String) (front back : List Declaration) :
    residents directory root uri (front ++ back) =
      residents directory root uri front ++ residents directory root uri back :=
  List.filter_append front back

theorem filed_frame (state : State) (declarations : List Declaration) :
    let filed := declarations.foldl (addDeclaration directory) state
    filed.options = state.options ∧ filed.root = state.root ∧
      filed.directoryUrls = state.directoryUrls := by
  induction declarations generalizing state with
  | nil => exact ⟨rfl, rfl, rfl⟩
  | cons declaration rest ih => exact ih (state.addDeclaration directory declaration)

theorem find_registered (anchors : Index String String) (added : List String)
    (uri anchor : String) :
    (added.foldl (fun anchors anchor => anchors.insertNew anchor uri) anchors).find? anchor =
      (anchors.find? anchor).or (if anchor ∈ added then some uri else none) := by
  induction added generalizing anchors with
  | nil => simp
  | cons first rest ih =>
      rw [List.foldl_cons, ih, Index.find?_insert_new, Option.or_assoc]
      apply congrArg
      by_cases same : anchor = first
      · simp [same]
      · simp [same]

theorem keys_registered (anchors : Index String String) (added : List String) (uri : String) :
    (added.foldl (fun anchors anchor => anchors.insertNew anchor uri) anchors).keys =
      anchors.keys ++ (added.filter fun anchor => anchor ∉ anchors.keys).eraseDups := by
  induction added generalizing anchors with
  | nil => simp
  | cons first rest ih =>
      rw [List.foldl_cons, ih, Index.keys_insert_new, List.filter_cons]
      by_cases known : first ∈ anchors.keys
      · simp [known]
      · have others : rest.filter (fun anchor => decide (anchor ∉ anchors.keys ++ [first])) =
            (rest.filter fun anchor => anchor ∉ anchors.keys).filter fun anchor =>
              !anchor == first := by
          rw [List.filter_filter]
          apply List.filter_congr
          intro anchor _
          by_cases same : anchor = first <;> simp [same]
        simp only [known, if_false, not_false_eq_true, decide_true, if_true, List.eraseDups_cons,
          others, List.append_assoc, List.singleton_append]

/-- An anchor leads to the page of the first declaration that has it. -/
theorem anchors_filed (state : State) (declarations : List Declaration) (anchor : String) :
    (declarations.foldl (addDeclaration directory) state).anchors.find? anchor =
      (state.anchors.find? anchor).or
        ((declarations.find? fun declaration => anchor ∈ declaration.anchors none).map
          (homeOf directory state.root)) := by
  induction declarations generalizing state with
  | nil => simp
  | cons declaration rest ih =>
      have sameRoot : (state.addDeclaration directory declaration).root = state.root := rfl
      have own : (state.addDeclaration directory declaration).anchors.find? anchor =
          (state.anchors.find? anchor).or
            (if anchor ∈ declaration.anchors none
              then some (homeOf directory state.root declaration) else none) :=
        find_registered state.anchors _ _ anchor
      rw [List.foldl_cons, ih, own, sameRoot, Option.or_assoc]
      apply congrArg
      by_cases has : anchor ∈ declaration.anchors none
      · simp [has]
      · simp [has]

theorem pages_filed {state : State} (fresh : state.pages = {}) (declarations : List Declaration)
    (uri : String) :
    (declarations.foldl (addDeclaration directory) state).pages.find? uri =
      (residents directory state.root uri declarations).head?.map fun first =>
        ⟨pageLabel state.root first.file, residents directory state.root uri declarations⟩ := by
  induction declarations using List.reverseRecOn with
  | nil => simp [fresh, residents, Index.find?]
  | append_singleton front last ih =>
      have sameRoot := (filed_frame directory state front).2.1
      have step : ((front ++ [last]).foldl (addDeclaration directory) state).pages.find? uri =
          if uri = homeOf directory state.root last then
            some (let page := ((front.foldl (addDeclaration directory) state).pages.find?
                (homeOf directory state.root last)).getD ⟨pageLabel state.root last.file, []⟩
              { page with declarations := page.declarations ++ [last] })
          else (front.foldl (addDeclaration directory) state).pages.find? uri := by
        rw [List.foldl_append, List.foldl_cons, List.foldl_nil, addDeclaration, sameRoot]
        exact Index.find?_insert _ _ _ _
      rw [step, residents_append]
      by_cases here : uri = homeOf directory state.root last
      · have own : residents directory state.root uri [last] = [last] := by simp [residents, here]
        rw [if_pos here, own, ← here, ih]
        cases residents directory state.root uri front with
        | nil => rfl
        | cons first rest => rfl
      · have other : residents directory state.root uri [last] = [] := by
          simp [residents, Ne.symm here]
        rw [if_neg here, other, List.append_nil, ih]

theorem filed_is_empty {state : State} (fresh : state.pages = {})
    (declarations : List Declaration) :
    (declarations.foldl (addDeclaration directory) state).pages.isEmpty = declarations.isEmpty := by
  cases declarations with
  | nil =>
      rw [List.foldl_nil, fresh]
      rfl
  | cons first rest =>
      have found := pages_filed directory fresh (first :: rest) (homeOf directory state.root first)
      generalize (first :: rest).foldl (addDeclaration directory) state = filed at found ⊢
      have resident : first ∈ residents directory state.root (homeOf directory state.root first)
          (first :: rest) := by
        simp [residents]
      cases inhabited :
        residents directory state.root (homeOf directory state.root first) (first :: rest) with
      | nil => simp [inhabited] at resident
      | cons head others =>
          cases entries : filed.pages.entries with
          | nil => simp [inhabited, Index.find?, entries] at found
          | cons entry more => simp [Index.isEmpty, entries]

theorem with_declarations_frame (options : Options) (state : State)
    (declarations : List Declaration) :
    let filed := declarations.foldl (addDeclaration options.outputDirectory) state
    (withDeclarations options state declarations).options = filed.options ∧
      (withDeclarations options state declarations).anchors = filed.anchors ∧
      (withDeclarations options state declarations).directoryUrls = filed.directoryUrls := by
  unfold withDeclarations addIndex
  split <;> exact ⟨rfl, rfl, rfl⟩

/-- The page of an address: the one that lists the others if it stands there, else that of its
declarations. -/
theorem pages_with_declarations {state : State} (fresh : state.pages = {}) (options : Options)
    (declarations : List Declaration) (uri : String) :
    (withDeclarations options state declarations).pages.find? uri =
      if options.index ∧ declarations ≠ [] ∧ uri = options.outputDirectory ++ "/index.md" then
        some ⟨indexLabel, []⟩
      else
        (residents options.outputDirectory state.root uri declarations).head?.map fun first =>
          ⟨pageLabel state.root first.file,
            residents options.outputDirectory state.root uri declarations⟩ := by
  rw [withDeclarations, addIndex, filed_is_empty _ fresh]
  cases wanted : options.index && !declarations.isEmpty with
  | false =>
      have unlisted :
          ¬(options.index ∧ declarations ≠ [] ∧ uri = options.outputDirectory ++ "/index.md") := by
        rintro ⟨index, inhabited, -⟩
        simp [index, inhabited] at wanted
      rw [if_neg (by simp), if_neg unlisted, pages_filed _ fresh]
  | true =>
      simp only [Bool.and_eq_true, Bool.not_eq_true', List.isEmpty_eq_false_iff] at wanted
      simp only [if_true, Index.find?_insert, wanted.1, wanted.2, ne_eq, not_false_eq_true,
        true_and, pages_filed _ fresh]

end State

end HeaderDocs.Site
