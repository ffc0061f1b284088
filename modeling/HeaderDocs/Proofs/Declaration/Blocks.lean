import HeaderDocs.Proofs.Declaration.Shift
import HeaderDocs.Proofs.Walk.Shape

/-!
A page as blocks. Each block is a text, taken apart into characters and links; blocks are put
together with line feeds. Anchors, headings and signatures are blocks of characters, so whatever
looks like a link in them is none: links come from docs alone. A block without a line feed is a line
of the page.
-/

namespace HeaderDocs.Declaration

set_option autoImplicit false

open Text Comment

abbrev Block := List Segment

namespace Block

def text (block : Block) : String :=
  String.ofList (Segment.write block)

def links (block : Block) : List (List Char × List Char) :=
  block.filterMap Segment.link?

def fixed (text : String) : Block :=
  Segment.plains text.toList

/-- A doc as it is shown: its headings at some level, its links with the places that they lead
to. -/
def doc (resolve : Resolver) (level : Int) (markdown : String) : Block :=
  (Segment.read (shiftHeadings level markdown).toList).map (Segment.placed resolve)

def joined (blocks : List Block) : String :=
  String.intercalate "\n" (blocks.map text)

@[simp] theorem text_fixed (line : String) : text (fixed line) = line := by
  rw [text, fixed, Segment.write_plains, String.ofList_toList]

@[simp] theorem links_fixed (line : String) : links (fixed line) = [] :=
  Segment.links_plains _

theorem map_text_fixed (lines : List String) : (lines.map fixed).map text = lines := by
  simp [Function.comp_def]

theorem text_doc (resolve : Resolver) (level : Int) (markdown : String) :
    text (doc resolve level markdown) = resolveLinks resolve (shiftHeadings level markdown) := by
  rw [text, doc, resolveLinks, Segment.resolve_text_eq_write_read]

theorem links_doc (resolve : Resolver) (level : Int) (markdown : String) :
    links (doc resolve level markdown) =
      (foundLinks (shiftHeadings level markdown)).map fun link =>
        (link.1, placeOf resolve link.2) := by
  rw [links, doc, foundLinks, List.filterMap_map, List.map_filterMap]
  apply List.filterMap_congr
  intro segment _
  cases segment <;> rfl

theorem joined_append {front back : List Block} (some : front ≠ []) (more : back ≠ []) :
    joined (front ++ back) = joined front ++ "\n" ++ joined back := by
  rw [joined, List.map_append,
    String.intercalate_append_of_ne_nil (by simpa using some) (by simpa using more)]
  rfl

theorem joined_flatten {groups : List (List Block)} (filled : ∀ group ∈ groups, group ≠ []) :
    String.intercalate "\n" (groups.map joined) = joined groups.flatten := by
  induction groups with
  | nil => rfl
  | cons group rest ih =>
      have others : ∀ other ∈ rest, other ≠ [] :=
        fun other member => filled other (List.mem_cons_of_mem _ member)
      cases rest with
      | nil => simp
      | cons next further =>
          have more : (next :: further).flatten ≠ [] := by
            have first := others next (by simp)
            simp [first]
          rw [List.flatten_cons, joined_append (filled group (by simp)) more, ← ih others]
          exact String.intercalate_cons_cons

theorem joined_ruled {groups : List (List Block)} (filled : ∀ group ∈ groups, group ≠ []) :
    String.intercalate "\n---\n\n" (groups.map joined) =
      joined (List.intercalate [fixed "---", fixed ""] groups) := by
  induction groups with
  | nil => rfl
  | cons group rest ih =>
      have others : ∀ other ∈ rest, other ≠ [] :=
        fun other member => filled other (List.mem_cons_of_mem _ member)
      cases rest with
      | nil => simp
      | cons next further =>
          have ruled : joined [fixed "---", fixed ""] = "---\n" := by
            simp only [joined, List.map_cons, List.map_nil, text_fixed]
            decide
          have more : List.intercalate [fixed "---", fixed ""] (next :: further) ≠ [] := by
            have first := others next (by simp)
            cases further with
            | nil => simpa using first
            | cons last final => simp [List.intercalate_cons_cons, first]
          rw [List.intercalate_cons_cons, joined_append (by simp) more,
            joined_append (filled group (by simp)) (by simp), ruled, ← ih others, List.map_cons,
            List.map_cons, String.intercalate_cons_cons]
          simp only [String.append_assoc]
          rfl

theorem split_join_lines {lines : List (List Char)} (some : lines ≠ []) :
    (joinLines lines).splitOn '\n' = lines.flatMap (List.splitOn '\n') := by
  induction lines with
  | nil => exact absurd rfl some
  | cons line rest ih =>
      cases rest with
      | nil => simp
      | cons next others =>
          rw [join_lines_cons line (by simp), List.splitOn_append_cons_self, ih (by simp)]
          rfl

theorem line_of_block {blocks : List Block} {block : Block} (member : block ∈ blocks)
    (whole : '\n' ∉ (text block).toList) :
    (text block).toList ∈ (joined blocks).toList.splitOn '\n' := by
  have chars : (joined blocks).toList = joinLines ((blocks.map text).map String.toList) :=
    String.toList_intercalate
  have some : (blocks.map text).map String.toList ≠ [] := by
    simpa using List.ne_nil_of_mem member
  rw [chars, split_join_lines some, List.mem_flatMap]
  refine ⟨_, List.mem_map_of_mem (List.mem_map_of_mem member), ?_⟩
  rw [List.splitOn_eq_singleton whole]
  exact List.mem_singleton_self _

end Block

open Block

def ownBlocks (declaration : Declaration) (style : Style)
    (parent : Option Declaration) : List Block :=
  let anchor := declaration.anchor parent
  (if anchor.isEmpty then [] else [fixed (anchorLine anchor), fixed ""]) ++
    [fixed (declaration.heading style.headingLevel), fixed ""] ++
      declaration.signatureLines.map fixed ++
    (if declaration.doc.isEmpty then []
      else [Block.doc style.resolve style.headingLevel declaration.doc, fixed ""]) ++
    (declaration.deriveLines style).map fixed

mutual

def blocks (style : Style) (parent : Option Declaration) : Declaration → List Block
  | ⟨name, kind, doc, signature, file, line, derives, members⟩ =>
      let declaration : Declaration := ⟨name, kind, doc, signature, file, line, derives, members⟩
      declaration.ownBlocks style parent ++
        if style.members then memberBlocks style.forMembers declaration members else []

def memberBlocks (style : Style) (parent : Declaration) : List Declaration → List Block
  | [] => []
  | member :: members => blocks style (some parent) member ++ memberBlocks style parent members

end

/-- The blocks of a page with a title, a rule between each two declarations. -/
def pageBlocks (style : Style) (declarations : List Declaration) (title : String) : List Block :=
  [fixed ("# " ++ title), fixed ""] ++
    if (shown style declarations).isEmpty then [fixed "_No bound symbols in this header._",
      fixed ""]
    else
      List.intercalate [fixed "---", fixed ""]
        ((shown style declarations).map (blocks style none)) ++
        [fixed ""]

theorem own_blocks_text (declaration : Declaration) (style : Style) (parent : Option Declaration) :
    (declaration.ownBlocks style parent).map Block.text = declaration.ownLines style parent := by
  simp only [ownBlocks, ownLines, docLines, List.map_append, map_text_fixed]
  split_ifs <;> simp [text_doc]

theorem own_blocks_filled (declaration : Declaration) (style : Style)
    (parent : Option Declaration) :
    declaration.ownBlocks style parent ≠ [] := by
  simp [ownBlocks]

theorem two_blocks (style : Style) (parent : Option Declaration) (declaration : Declaration) :
    ∃ first second rest, blocks style parent declaration = first :: second :: rest := by
  obtain ⟨name, kind, doc, signature, file, line, derives, members⟩ := declaration
  rw [blocks, ownBlocks]
  split <;> exact ⟨_, _, _, rfl⟩

theorem blocks_filled (style : Style) (parent : Option Declaration) (declaration : Declaration) :
    blocks style parent declaration ≠ [] := by
  obtain ⟨first, second, rest, some⟩ := two_blocks style parent declaration
  simp [some]

theorem joined_below {own : List Block} {groups : List (List Block)} (some : own ≠ [])
    (filled : ∀ group ∈ groups, group ≠ []) :
    String.intercalate "\n" (own.map Block.text ++ groups.map joined) =
      joined (own ++ groups.flatten) := by
  by_cases empty : groups = []
  · simp [empty, joined]
  · have more : groups.flatten ≠ [] := by
      obtain ⟨group, rest, rfl⟩ := List.exists_cons_of_ne_nil empty
      simp [filled group (by simp)]
    rw [joined_append some more, ← joined_flatten filled,
      String.intercalate_append_of_ne_nil (by simpa using some) (by simpa using empty)]
    rfl

mutual

theorem render_blocks (style : Style) (parent : Option Declaration) :
    ∀ declaration, render style parent declaration = joined (blocks style parent declaration)
  | ⟨name, kind, doc, signature, file, line, derives, members⟩ => by
      rw [render, blocks, ← own_blocks_text]
      cases style.members with
      | false => simp [joined]
      | true =>
          obtain ⟨groups, rendered, filled, below⟩ := render_members_blocks style.forMembers
            ⟨name, kind, doc, signature, file, line, derives, members⟩ members
          simp only [if_true, rendered, below]
          exact joined_below (own_blocks_filled _ _ _) filled

theorem render_members_blocks (style : Style) (parent : Declaration) :
    ∀ members, ∃ groups : List (List Block),
    renderMembers style parent members = groups.map joined ∧ (∀ group ∈ groups, group ≠ []) ∧
      memberBlocks style parent members = groups.flatten
  | [] => ⟨[], rfl, by simp, rfl⟩
  | member :: members => by
      obtain ⟨groups, rendered, filled, below⟩ := render_members_blocks style parent members
      refine ⟨blocks style (some parent) member :: groups, ?_, ?_, ?_⟩
      · rw [renderMembers, render_blocks style (some parent) member, rendered, List.map_cons]
      · intro group inGroups
        rcases List.mem_cons.1 inGroups with rfl | later
        · exact blocks_filled style (some parent) member
        · exact filled group later
      · rw [memberBlocks, below, List.flatten_cons]

end

theorem joined_ne_empty (first second : Block) (rest : List Block) :
    joined (first :: second :: rest) ≠ "" := by
  rw [joined, List.map_cons, List.map_cons, String.intercalate_cons_cons]
  intro empty
  simp at empty

theorem render_page_blocks (style : Style) (declarations : List Declaration) (title : String) :
    renderPage style declarations title = joined (pageBlocks style declarations title) := by
  have body : renderAll style declarations =
      joined (List.intercalate [fixed "---", fixed ""]
        ((shown style declarations).map (blocks style none))) := by
    rw [renderAll, ← joined_ruled]
    · rw [List.map_map]
      apply congrArg
      exact List.map_congr_left fun declaration _ => render_blocks style none declaration
    · simp only [List.mem_map]
      rintro group ⟨declaration, -, rfl⟩
      exact blocks_filled style none declaration
  rw [renderPage, pageBlocks, body]
  cases shown style declarations with
  | nil => simp [joined, String.intercalate_cons_cons, String.append_assoc]
  | cons first rest =>
      obtain ⟨one, two, others, more⟩ : ∃ one two others,
          List.intercalate [fixed "---", fixed ""] ((first :: rest).map (blocks style none)) =
            one :: two :: others := by
        obtain ⟨one, two, others, more⟩ := two_blocks style none first
        cases rest with
        | nil => exact ⟨one, two, others, by simp [more]⟩
        | cons next further =>
            rw [List.map_cons, List.map_cons, List.intercalate_cons_cons, more]
            exact ⟨one, two, _, rfl⟩
      have present : (joined (one :: two :: others)).isEmpty = false := by
        simpa [String.isEmpty_iff] using joined_ne_empty one two others
      rw [more]
      simp only [present, List.isEmpty_cons, Bool.false_eq_true, if_false]
      rw [joined_append (by simp) (by simp), joined_append (by simp) (by simp)]
      simp [joined, String.intercalate_cons_cons, String.append_assoc]

theorem blocks_of_items {declaration : Declaration} (composed : declaration.Composed)
    {style : Style} (whole : style.members) :
    blocks style none declaration = declaration.items.flatMap fun item =>
      item.declaration.ownBlocks (if item.parent.isNone then style else style.forMembers)
        item.parent := by
  have members : ∀ others ⊆ declaration.members, memberBlocks style.forMembers declaration others =
      others.flatMap fun member => member.ownBlocks style.forMembers (some declaration) := by
    intro others inside
    induction others with
    | nil => rfl
    | cons member rest ih =>
        have leaf := composed.flat member (inside (by simp))
        obtain ⟨name, kind, doc, signature, file, line, derives, below⟩ := member
        simp only at leaf
        subst leaf
        rw [memberBlocks, blocks, memberBlocks, ih fun _ other => inside (by simp [other]),
          List.flatMap_cons]
        simp
  obtain ⟨name, kind, doc, signature, file, line, derives, below⟩ := declaration
  rw [blocks, members below (List.Subset.refl _)]
  simp only [whole, if_true, items, List.flatMap_cons, List.flatMap_map]
  rfl

theorem mem_intercalate {separator group : List Block} {groups : List (List Block)}
    (inGroups : group ∈ groups) {block : Block} (member : block ∈ group) :
    block ∈ List.intercalate separator groups := by
  induction groups with
  | nil => simp at inGroups
  | cons first rest ih =>
      cases rest with
      | nil =>
          rw [List.mem_singleton.1 inGroups] at member
          simpa using member
      | cons next others =>
          rw [List.intercalate_cons_cons]
          rcases List.mem_cons.1 inGroups with rfl | later
          · simp [member]
          · exact List.mem_append_right _ (ih later)

theorem mem_of_intercalate {separator : List Block} {groups : List (List Block)} {block : Block}
    (member : block ∈ List.intercalate separator groups) :
    block ∈ separator ∨ ∃ group ∈ groups, block ∈ group := by
  induction groups with
  | nil => simp at member
  | cons first rest ih =>
      cases rest with
      | nil => exact Or.inr ⟨first, by simp, by simpa using member⟩
      | cons next others =>
          rw [List.intercalate_cons_cons] at member
          rcases List.mem_append.1 member with front | later
          · rcases List.mem_append.1 front with own | between
            · exact Or.inr ⟨first, by simp, own⟩
            · exact Or.inl between
          · rcases ih later with between | ⟨group, inRest, inGroup⟩
            · exact Or.inl between
            · exact Or.inr ⟨group, List.mem_cons_of_mem _ inRest, inGroup⟩

/-- The anchor of a shown declaration, or of one of its members, has a line of its own on the
page. -/
theorem anchor_line_on_page {style : Style} (whole : style.members)
    {declarations : List Declaration} {declaration : Declaration}
    (isShown : declaration ∈ shown style declarations) (composed : declaration.Composed)
    {item : Item} (inItems : item ∈ declaration.items)
    (identifier : item.anchor ≠ "" ∧ '\n' ∉ item.anchor.toList) (title : String) :
    (anchorLine item.anchor).toList ∈ (renderPage style declarations title).toList.splitOn
      '\n' := by
  have own : fixed (anchorLine item.anchor) ∈ blocks style none declaration := by
    rw [blocks_of_items composed whole, List.mem_flatMap]
    refine ⟨item, inItems, ?_⟩
    have present : (item.declaration.anchor item.parent).isEmpty = false := by
      simpa [String.isEmpty_iff, Item.anchor] using identifier.1
    simp [ownBlocks, Item.anchor, present]
  have onPage : fixed (anchorLine item.anchor) ∈ pageBlocks style declarations title := by
    have some : (shown style declarations).isEmpty = false := by
      simpa using List.ne_nil_of_mem isShown
    simp only [pageBlocks, some, Bool.false_eq_true, if_false]
    apply List.mem_append_right
    apply List.mem_append_left
    exact mem_intercalate (List.mem_map_of_mem isShown) own
  rw [render_page_blocks]
  have line := line_of_block onPage
  rw [text_fixed] at line
  apply line
  simp [anchorLine, identifier.2]

theorem doc_of_own_blocks {declaration : Declaration} {style : Style} {parent : Option Declaration}
    {block : Block} (member : block ∈ declaration.ownBlocks style parent)
    (notFixed : ∀ line, block ≠ fixed line) :
    block = Block.doc style.resolve style.headingLevel declaration.doc := by
  have noneFixed : ∀ lines : List String, block ∉ lines.map fixed := by
    intro lines inLines
    obtain ⟨line, -, same⟩ := List.mem_map.1 inLines
    exact notFixed line same.symm
  simp only [ownBlocks, List.mem_append, List.mem_cons, List.not_mem_nil, or_false, noneFixed,
    notFixed] at member
  split_ifs at member <;> simp_all

theorem block_of_page {style : Style} {declarations : List Declaration} {title : String}
    {block : Block} (member : block ∈ pageBlocks style declarations title)
    (notFixed : ∀ line, block ≠ fixed line) :
    ∃ declaration ∈ shown style declarations, block ∈ blocks style none declaration := by
  rw [pageBlocks] at member
  rcases List.mem_append.1 member with heading | rest
  · simp [notFixed] at heading
  · split at rest
    · simp [notFixed] at rest
    · rcases List.mem_append.1 rest with body | ending
      · rcases mem_of_intercalate body with rule | ⟨group, inGroups, inGroup⟩
        · simp [notFixed] at rule
        · obtain ⟨declaration, isShown, rfl⟩ := List.mem_map.1 inGroups
          exact ⟨declaration, isShown, inGroup⟩
      · simp [notFixed] at ending

/-- Every link on a page stands in the doc of a shown declaration or one of its members. -/
theorem link_on_page {style : Style} (whole : style.members) {declarations : List Declaration}
    (composed : ∀ declaration ∈ declarations, declaration.Composed) {title : String}
    {link : List Char × List Char}
    (onPage : link ∈ (pageBlocks style declarations title).flatMap Block.links) :
    ∃ declaration ∈ declarations, ∃ item ∈ declaration.items, ∃ level,
      ∃ found ∈ foundLinks (shiftHeadings level item.declaration.doc),
        link = (found.1, placeOf style.resolve found.2) := by
  obtain ⟨block, inBlocks, inLinks⟩ := List.mem_flatMap.1 onPage
  have notFixed : ∀ line, block ≠ fixed line := by
    rintro line rfl
    simp at inLinks
  obtain ⟨declaration, isShown, inDeclaration⟩ := block_of_page inBlocks notFixed
  have known : declaration ∈ declarations := List.mem_of_mem_filter isShown
  rw [blocks_of_items (composed declaration known) whole] at inDeclaration
  obtain ⟨item, inItems, own⟩ := List.mem_flatMap.1 inDeclaration
  have isDoc := doc_of_own_blocks own notFixed
  rw [isDoc, links_doc] at inLinks
  obtain ⟨found, inDoc, rfl⟩ := List.mem_map.1 inLinks
  refine ⟨declaration, known, item, inItems, _, found, inDoc, ?_⟩
  split <;> rfl

end HeaderDocs.Declaration
