import Filing.Proofs.Text.Numbers
import Filing.Proofs.Xml.Elements
import Filing.Validation.AdjustmentMap
import Filing.Validation.Validate
import Mathlib.Data.List.Induction

/-!
# Adjustment maps only advise

Reading an adjustment map into a book of rules appends to the rules of each form: one rule for each
increase that the maps of the form list, map by map. Such a rule finds fault with a negative amount
in a static field and with nothing else, and then it warns. So whatever validation found before it
still finds, no error is added, and behind the broken rules stand the warnings.

The maps are taken in the order of the document and so are the items of each of them. A map of a form
within another map of the form comes after all items of the outer one, also those that follow it in
the document; only where maps of a form are not nested are its items in document order.

Main statement: `loadInPlace_advises`.
-/

namespace Filing

open Xml (Node)

/-! ## What maps ask for -/

/-- The element is a map of a form. -/
def isMapOf (formCode : String) (map : Node) : Bool :=
  map.name == "Map" && map.filledAttr? "ID" == some formCode

/-- The item names a field and is marked as an increase of it. -/
def isIncrease (item : Node) : Bool :=
  (item.filledAttr? "CellID").isSome && item.filledAttr? "DieuChinhTang" == some "1"

/-- The increases of a form, map by map. A root that is a map is the only one that counts; else all
maps below the root do, in document order. -/
def increases (formCode : String) (root : Node) : List Node :=
  (((if root.name = "Map" then [root] else root.elements.tail).filter (isMapOf formCode)).flatMap
    (·.childrenNamed "Item")).filter isIncrease

/-- The same increases in document order. -/
def increasesInOrder (formCode : String) (root : Node) : List Node :=
  ((if root.name = "Map" then root.children.map (root, ·) else root.edges).filter fun e =>
    isMapOf formCode e.1 && (e.2.name == "Item" && isIncrease e.2)).map (·.2)

/-- The text, apart from blanks around it, is a negative amount. -/
def isNegativeAmount (text : String) : Bool :=
  (Decimal.ofText? (Text.trim text)).any (·.negative)

/-- The rule advises against a negative amount in the field of an item. -/
structure Rule.IsAdviceOn (rule : Rule) (item : Node) : Prop where
  field : item.filledAttr? "CellID" = some rule.field
  kind : rule.kind = .format
  id : rule.id = "adjustment-increase-" ++ rule.field
  message : rule.message = (item.filledAttr? "Caption").getD rule.field ++ " (indicator " ++
    (item.filledAttr? "MCT").getD rule.field ++
      ") is an increase adjustment and should not be negative"
  holds : ∀ value d, rule.holds value d = !value.any isNegativeAmount

/-! ## The rule of an item -/

theorem isNotNegative_eq (value : Option String) :
    isNotNegative value = !value.any isNegativeAmount := by
  unfold isNotNegative isNegativeAmount
  cases value with
  | none => rfl
  | some text =>
    dsimp only [Option.any_some]
    split
    · cases Decimal.ofText? (Text.trim text) <;> rfl
    · next hblank =>
      have hempty : Text.trim text = "" := Text.trim_eq_empty_iff.2 (by simpa using hblank)
      rw [hempty]
      decide

theorem isAdviceOn_of_increaseRule? {item : Node} {rule : Rule} (h : increaseRule? item = some rule) :
    isIncrease item = true ∧ rule.IsAdviceOn item := by
  unfold increaseRule? at h
  obtain ⟨field, hfield, h⟩ := Option.bind_eq_some_iff.1 h
  by_cases hmark : item.filledAttr? "DieuChinhTang" = some "1"
  · rw [if_neg (not_not_intro hmark)] at h
    obtain rfl := Option.some.inj h
    exact ⟨by simp [isIncrease, hfield, hmark], hfield, rfl, rfl, rfl,
      fun value _ => isNotNegative_eq value⟩
  · rw [if_pos hmark] at h
    exact absurd h (Option.some_ne_none _).symm

theorem exists_increaseRule? {item : Node} (h : isIncrease item = true) :
    ∃ rule, increaseRule? item = some rule := by
  obtain ⟨hfield, hmark⟩ := Bool.and_eq_true_iff.1 h
  obtain ⟨field, hfield⟩ := Option.isSome_iff_exists.1 hfield
  unfold increaseRule?
  rw [hfield]
  exact ⟨_, if_neg (not_not_intro (beq_iff_eq.1 hmark))⟩

theorem forall₂_filterMap_increaseRule? (items : List Node) :
    List.Forall₂ (fun item rule => Rule.IsAdviceOn rule item) (items.filter isIncrease)
      (items.filterMap increaseRule?) := by
  refine forall₂_filter_filterMap (fun item _ hnone => ?_) fun item _ rule h =>
    isAdviceOn_of_increaseRule? h
  by_contra hincrease
  obtain ⟨rule, hrule⟩ := exists_increaseRule? (by simpa using hincrease)
  rw [hrule] at hnone
  exact absurd hnone (Option.some_ne_none _)

/-! ## The rules of a map -/

/-- The rules of a map, which names its form. -/
def mapRules (map : Node) : RuleBook :=
  match map.filledAttr? "ID" with
  | some formCode =>
    (map.childrenNamed "Item").filterMap fun item => (increaseRule? item).map (formCode, ·)
  | none => []

/-- The rules of an adjustment map; an empty document has none. -/
def readAdjustmentMap (source : String) : Except Xml.DocumentError RuleBook :=
  match Xml.read source with
  | .error e => .error (.illFormed e)
  | .ok none => .ok []
  | .ok (some root) => .ok ((mapNodes root).flatMap mapRules)

/-! ## Registering -/

/-- Steps that each append some rules and count them append the rules of all. -/
theorem foldl_eq_append {α : Type} {step : RuleBook × Nat → α → RuleBook × Nat}
    {rules : α → RuleBook}
    (hstep : ∀ st a, step st a = (st.1 ++ rules a, st.2 + (rules a).length)) (l : List α)
    (st : RuleBook × Nat) :
    l.foldl step st = (st.1 ++ l.flatMap rules, st.2 + (l.flatMap rules).length) := by
  induction l generalizing st with
  | nil => simp
  | cons a l ih => simp [ih, hstep, Nat.add_assoc]

theorem registerItem_eq (formCode : String) (st : RuleBook × Nat) (item : Node) :
    registerItem formCode st item =
      (st.1 ++ ((increaseRule? item).toList.map (formCode, ·)),
        st.2 + ((increaseRule? item).toList.map (formCode, ·)).length) := by
  unfold registerItem
  cases increaseRule? item <;> simp [RuleBook.register]

theorem registerMap_eq (st : RuleBook × Nat) (map : Node) :
    registerMap st map = (st.1 ++ mapRules map, st.2 + (mapRules map).length) := by
  unfold registerMap mapRules
  cases map.filledAttr? "ID" with
  | none => simp
  | some formCode =>
    have hrules : (map.childrenNamed "Item").flatMap
        (fun item => (increaseRule? item).toList.map (formCode, ·)) =
          (map.childrenNamed "Item").filterMap fun item =>
            (increaseRule? item).map (formCode, ·) := by
      simp only [List.filterMap_eq_flatMap_toList, Option.toList_map]
    dsimp only
    rw [foldl_eq_append (registerItem_eq formCode), hrules]

namespace RuleBook

theorem loadInPlace_eq_append {book : RuleBook} {source : String} {root : Node}
    (h : Xml.read source = .ok (some root)) :
    book.loadInPlace source = (book ++ (mapNodes root).flatMap mapRules,
      .ok ((mapNodes root).flatMap mapRules).length) := by
  unfold loadInPlace
  rw [h]
  dsimp only
  rw [foldl_eq_append registerMap_eq]
  simp

/-- Item by item, the rules of a map are put behind those of the book. -/
theorem load_eq (book : RuleBook) (source : String) : book.load source =
    (readAdjustmentMap source).map fun rules => (book ++ rules, rules.length) := by
  unfold load readAdjustmentMap
  cases hread : Xml.read source with
  | error e => rw [loadInPlace, hread]; rfl
  | ok found =>
    cases found with
    | none => rw [loadInPlace, hread]; simp [Except.map]
    | some root => rw [loadInPlace_eq_append hread]; rfl

theorem rulesFor_append (book more : RuleBook) (formCode : String) :
    (book ++ more).rulesFor formCode = book.rulesFor formCode ++ more.rulesFor formCode := by
  rw [rulesFor, rulesFor, rulesFor, List.filter_append, List.map_append]

/-- The rules of a book on shelves, one for each form. -/
def shelves (book : RuleBook) : KeyMap (List Rule) :=
  book.foldl (fun shelves e => shelves.insert e.1 ((shelves.find? e.1).getD [] ++ [e.2])) ∅

/-- The rules of a form stand on its shelf in the order in which they were registered, whatever was
registered between them. -/
theorem find?_shelves (book : RuleBook) (formCode : String) :
    (book.shelves.find? formCode).getD [] = book.rulesFor formCode := by
  induction book using List.reverseRecOn with
  | nil => rfl
  | append_singleton book e ih =>
    rw [rulesFor_append, ← ih, shelves, List.foldl_append, ← shelves, List.foldl_cons,
      List.foldl_nil, KeyMap.find?_insert]
    by_cases hcode : e.1 = formCode
    · simp [hcode, rulesFor]
    · simp [hcode, rulesFor, Ne.symm hcode]

end RuleBook

/-- The elements that can be maps of a form. -/
theorem mapNodes_eq_filter (root : Node) : mapNodes root =
    (if root.name = "Map" then [root] else root.elements.tail).filter (·.name == "Map") := by
  unfold mapNodes
  split
  · next hname => rw [List.filter_cons, if_pos (by simpa using hname), List.filter_nil]
  · rw [Node.descendantsNamed_eq_filter]

theorem rulesFor_mapRules (formCode : String) (map : Node) :
    RuleBook.rulesFor (mapRules map) formCode =
      if map.filledAttr? "ID" == some formCode then
        (map.childrenNamed "Item").filterMap increaseRule? else [] := by
  unfold mapRules RuleBook.rulesFor
  cases map.filledAttr? "ID" with
  | none => rfl
  | some code =>
    dsimp only
    rw [List.filter_filterMap, List.map_filterMap]
    by_cases hcode : code = formCode
    · rw [if_pos (by simpa using hcode)]
      refine List.filterMap_congr fun item _ => ?_
      cases increaseRule? item <;> simp [hcode]
    · rw [if_neg (by simpa using hcode), List.filterMap_eq_nil_iff]
      intro item _
      cases increaseRule? item <;> simp [hcode]

/-- The rules of all maps for a form are those of its increases. -/
theorem rulesFor_flatMap_mapRules (formCode : String) (root : Node) :
    List.Forall₂ (fun item rule => Rule.IsAdviceOn rule item) (increases formCode root)
      (RuleBook.rulesFor ((mapNodes root).flatMap mapRules) formCode) := by
  have hmaps : (mapNodes root).filter (·.filledAttr? "ID" == some formCode) =
      (if root.name = "Map" then [root] else root.elements.tail).filter (isMapOf formCode) := by
    rw [mapNodes_eq_filter, List.filter_filter]
    exact List.filter_congr fun map _ => Bool.and_comm _ _
  have hrules : RuleBook.rulesFor ((mapNodes root).flatMap mapRules) formCode =
      (mapNodes root).flatMap fun map => RuleBook.rulesFor (mapRules map) formCode := by
    unfold RuleBook.rulesFor
    rw [List.filter_flatMap, List.map_flatMap]
  rw [hrules, List.flatMap_congr fun map _ => rulesFor_mapRules formCode map, flatMap_ite_nil,
    hmaps, ← List.filterMap_flatMap]
  exact forall₂_filterMap_increaseRule? _

/-- Where the maps of a form are not nested, its increases are in document order. -/
theorem increases_eq_increasesInOrder {formCode : String} {root : Node}
    (h : root.name = "Map" ∨ root.NeverNests (isMapOf formCode)) :
    increases formCode root = increasesInOrder formCode root := by
  have hmaps : ((if root.name = "Map" then [root] else root.elements.tail).filter
      (isMapOf formCode)).flatMap (fun map => map.children.map (map, ·)) =
        (if root.name = "Map" then root.children.map (root, ·) else root.edges).filter
          (isMapOf formCode ·.1) := by
    by_cases hroot : root.name = "Map"
    · rw [if_pos hroot, if_pos hroot]
      by_cases hmap : isMapOf formCode root = true <;> simp [hmap, List.filter_map, Function.comp_def]
    · have htail : root.elements.tail.filter (isMapOf formCode) =
          root.elements.filter (isMapOf formCode) := by
        rw [Node.elements_eq, List.tail_cons, List.filter_cons, if_neg (by simp [isMapOf, hroot])]
      rw [if_neg hroot, if_neg hroot, htail,
        Node.flatMap_children_eq_filter_edges (h.resolve_left hroot)]
  have hboth : ∀ l : List (Node × Node),
      (l.filter fun e => isMapOf formCode e.1 && (e.2.name == "Item" && isIncrease e.2)) =
        (l.filter (isMapOf formCode ·.1)).filter fun e => e.2.name == "Item" && isIncrease e.2 := by
    intro l
    rw [List.filter_filter]
    exact List.filter_congr fun e _ => Bool.and_comm _ _
  rw [increasesInOrder, hboth, ← hmaps, increases, List.filter_flatMap, List.filter_flatMap,
    List.map_flatMap]
  refine List.flatMap_congr fun map _ => ?_
  rw [Node.childrenNamed, List.filter_filter, List.filter_map, List.map_map]
  exact (List.filter_congr fun item _ => Bool.and_comm _ _).trans (List.map_id _).symm

/-! ## Validation -/

namespace FormData

/-- The field that a rule is about is a static one and holds a negative amount. -/
def holdsNegative (t : Template) (d : FormData) (rule : Rule) : Bool :=
  !t.isRowField rule.field &&
    ((t.field? rule.field).bind (d.value? ·.path)).any isNegativeAmount

/-- The warning of a rule about a static field. -/
def warningOf (t : Template) (rule : Rule) : Issue where
  severity := .warning
  category := .rule
  field := some rule.field
  path := (t.field? rule.field).elim "" (·.path)
  message := s!"{rule.id}: {rule.message}"

theorem ruleIssues_of_isAdviceOn {rule : Rule} {item : Node} (h : rule.IsAdviceOn item)
    (t : Template) (d : FormData) :
    d.ruleIssues t rule = if d.holdsNegative t rule then [warningOf t rule] else [] := by
  unfold ruleIssues ruleField? holdsNegative
  dsimp only
  rw [h.holds, h.kind]
  cases hstatic : t.isRowField rule.field with
  | true => simp
  | false =>
    cases hfield : t.field? rule.field with
    | none => simp
    | some f =>
      simp only [Bool.not_false, Option.filter_some, if_true, Option.bind_some, Bool.true_and]
      rw [warningOf, hfield]
      cases (d.value? f.path).any isNegativeAmount <;> rfl

/-- What rules of this kind find are warnings about negative amounts. -/
theorem flatMap_ruleIssues {items : List Node} {rules : List Rule}
    (h : List.Forall₂ (fun item rule => Rule.IsAdviceOn rule item) items rules) (t : Template)
    (d : FormData) : rules.flatMap (d.ruleIssues t) =
      (rules.filter (d.holdsNegative t)).map (warningOf t) := by
  induction h with
  | nil => rfl
  | cons hfirst _ ih =>
    rw [List.flatMap_cons, ih, ruleIssues_of_isAdviceOn hfirst, List.filter_cons]
    split <;> rfl

end FormData

/-- The second report is the first one with warnings behind the broken rules. -/
structure Report.AddsWarnings (before after : Report) (warnings : List Issue) : Prop where
  field : after.field = before.field
  rule : after.rule = before.rule ++ warnings
  structural : after.structural = before.structural
  errors : after.errors = before.errors
  isValid : after.isValid = before.isValid

theorem Report.addsWarnings {before after : Report} {warnings : List Issue}
    (hfield : after.field = before.field) (hrule : after.rule = before.rule ++ warnings)
    (hstructural : after.structural = before.structural)
    (hwarnings : ∀ i ∈ warnings, i.isError = false) : before.AddsWarnings after warnings := by
  have herrors : after.errors = before.errors := by
    rw [errors, errors, issues, issues, hfield, hrule, hstructural, ← List.append_assoc,
      List.filter_append, List.filter_append _ warnings, filter_eq_nil_of_forall hwarnings,
      List.append_nil, ← List.filter_append]
  exact ⟨hfield, hrule, hstructural, herrors, by rw [isValid, isValid, herrors]⟩

/-- An adjustment map that cannot be read leaves the book as it is. One that can be read appends to
the rules of each form those of its increases, and whatever the book, the form and the data, the only
effect on validation is one more warning for each of these rules whose field is a static one and
holds a negative amount. -/
theorem RuleBook.loadInPlace_advises (book : RuleBook) (source : String) :
    match Xml.read source with
    | .error e => book.loadInPlace source = (book, .error (.illFormed e))
    | .ok none => book.loadInPlace source = (book, .ok 0)
    | .ok (some root) => ∃ extended added, book.loadInPlace source = (extended, .ok added) ∧
        extended.length = book.length + added ∧
        ∀ formCode, ∃ more, extended.rulesFor formCode = book.rulesFor formCode ++ more ∧
          List.Forall₂ (fun item rule => Rule.IsAdviceOn rule item) (increases formCode root)
            more ∧
          (root.name = "Map" ∨ root.NeverNests (isMapOf formCode) →
            increases formCode root = increasesInOrder formCode root) ∧
          ∀ (s : Settings) (t : Template) (d : FormData), t.formCode = formCode →
            (d.validate s t book).AddsWarnings (d.validate s t extended)
              ((more.filter (d.holdsNegative t)).map (FormData.warningOf t)) := by
  cases hread : Xml.read source with
  | error e =>
    dsimp only
    rw [loadInPlace, hread]
  | ok found =>
    cases found with
    | none =>
      dsimp only
      rw [loadInPlace, hread]
    | some root =>
      refine ⟨_, _, loadInPlace_eq_append hread, List.length_append, fun formCode => ?_⟩
      have hadvice := rulesFor_flatMap_mapRules formCode root
      refine ⟨_, rulesFor_append _ _ _, hadvice, increases_eq_increasesInOrder,
        fun s t d hcode => ?_⟩
      subst hcode
      refine Report.addsWarnings rfl ?_ rfl fun i hi => ?_
      · rw [← FormData.flatMap_ruleIssues hadvice, FormData.validate, rulesFor_append,
          List.flatMap_append]
        rfl
      · obtain ⟨rule, -, rfl⟩ := List.mem_map.1 hi
        rfl

/-- An increase of a field. -/
def increaseOf (field : String) : Node :=
  ⟨"Item", [("CellID", field), ("DieuChinhTang", "1")], "", []⟩

/-- A map of a form within another one, and an item of the outer map behind it. -/
def nestedMaps : Node :=
  ⟨"MapMCT", [], "", [⟨"Map", [("ID", "01")], "",
    [⟨"Map", [("ID", "01")], "", [increaseOf "b"]⟩, increaseOf "a"]⟩]⟩

/-- A document of these maps. -/
def nestedMapsSource : String :=
  "<MapMCT><Map ID=\"01\"><Map ID=\"01\"><Item CellID=\"b\" DieuChinhTang=\"1\"/></Map>" ++
    "<Item CellID=\"a\" DieuChinhTang=\"1\"/></Map></MapMCT>"

theorem not_inOrder_nestedMaps :
    Xml.read nestedMapsSource = .ok (some nestedMaps) ∧
      (RuleBook.loadInPlace [] nestedMapsSource).2 = .ok 2 ∧
      ¬ List.Forall₂ (fun item rule => Rule.IsAdviceOn rule item) (increasesInOrder "01" nestedMaps)
        ((RuleBook.loadInPlace [] nestedMapsSource).1.rulesFor "01") := by
  have hread : Xml.read nestedMapsSource = .ok (some nestedMaps) := by decide +kernel
  rw [RuleBook.loadInPlace_eq_append hread]
  refine ⟨hread, by decide +kernel, fun hadvice => ?_⟩
  have hfields : (increasesInOrder "01" nestedMaps).map (·.filledAttr? "CellID") =
      (RuleBook.rulesFor ([] ++ (mapNodes nestedMaps).flatMap mapRules) "01").map (some ·.field) := by
    rw [← List.forall₂_eq_eq_eq, List.forall₂_map_left_iff, List.forall₂_map_right_iff]
    exact hadvice.imp fun _ _ hrule => hrule.field
  exact absurd hfields (by decide +kernel)

end Filing
