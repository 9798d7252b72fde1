/-
**Written elements are well formed.**

The grammar is that of XML 1.0 for documents without attributes, comments, instructions, sections
and declared entities, with the characters that may stand in a document as a parameter. So the
nesting of tags and the choice of characters are two properties: every tree whose names are names is
written with properly nested tags, and what is written holds allowed characters exactly if the texts
of the tree do.

* `IsAllowed`, `IsName`, `IsReference`, `Markup`, `IsDocument`: the grammar;
* `Markup.areAllowed`: well-formed markup holds allowed characters only;
* `isDocument_renderDocument`: **a written document is well formed, if its texts are**;
* `isDocument_renderDocument_iff`: **and only then**.
-/

import ExtensionCatalog.Proofs.Xml.Unambiguous
import ExtensionCatalog.Text.Numeral
import Mathlib.Data.List.Induction

namespace ExtensionCatalog.Xml

open Text

/-! ### Characters and names -/

/-- The code point of a character lies in one of some ranges. -/
def IsWithin (ranges : List (Nat × Nat)) (c : Char) : Prop :=
  ∃ range ∈ ranges, range.1 ≤ c.toNat ∧ c.toNat ≤ range.2

instance (ranges : List (Nat × Nat)) (c : Char) : Decidable (IsWithin ranges c) :=
  inferInstanceAs (Decidable (∃ range ∈ ranges, range.1 ≤ c.toNat ∧ c.toNat ≤ range.2))

/-- The code points of the characters that may stand in a document. -/
def allowedRanges : List (Nat × Nat) :=
  [(0x9, 0x9), (0xA, 0xA), (0xD, 0xD), (0x20, 0xD7FF), (0xE000, 0xFFFD), (0x10000, 0x10FFFF)]

/-- The character may stand in a document. -/
def IsAllowed (c : Char) : Prop := IsWithin allowedRanges c

instance (c : Char) : Decidable (IsAllowed c) :=
  inferInstanceAs (Decidable (IsWithin allowedRanges c))

/-- Every character of the text may stand in a document. -/
def AreAllowed (text : List Char) : Prop := ∀ c ∈ text, IsAllowed c

instance (text : List Char) : Decidable (AreAllowed text) := List.decidableBAll IsAllowed text

/-- The code points of the characters that a name may begin with. -/
def nameStartRanges : List (Nat × Nat) :=
  [(0x3A, 0x3A), (0x41, 0x5A), (0x5F, 0x5F), (0x61, 0x7A), (0xC0, 0xD6), (0xD8, 0xF6),
    (0xF8, 0x2FF), (0x370, 0x37D), (0x37F, 0x1FFF), (0x200C, 0x200D), (0x2070, 0x218F),
    (0x2C00, 0x2FEF), (0x3001, 0xD7FF), (0xF900, 0xFDCF), (0xFDF0, 0xFFFD), (0x10000, 0xEFFFF)]

/-- The code points of the characters that a name may hold. -/
def nameRanges : List (Nat × Nat) :=
  nameStartRanges ++ [(0x2D, 0x2E), (0x30, 0x39), (0xB7, 0xB7), (0x300, 0x36F), (0x203F, 0x2040)]

/-- The text is the name of an element. -/
def IsName : List Char → Prop
  | [] => False
  | first :: rest => IsWithin nameStartRanges first ∧ ∀ c ∈ rest, IsWithin nameRanges c

instance (text : List Char) : Decidable (IsName text) :=
  match text with
  | [] => inferInstanceAs (Decidable False)
  | first :: rest =>
    have : Decidable (∀ c ∈ rest, IsWithin nameRanges c) := List.decidableBAll _ rest
    inferInstanceAs (Decidable (IsWithin nameStartRanges first ∧ ∀ c ∈ rest, IsWithin nameRanges c))

/-! ### The grammar -/

/-- The entities that need no declaration. -/
def predefinedEntities : List String := ["amp", "lt", "gt", "apos", "quot"]

/-- What stands before the digits of a reference in a base. -/
def referenceMarks : List (Nat × List Char) := [(10, []), (16, ['x'])]

/-- A reference to a predefined entity, or to an allowed character by its number. -/
inductive IsReference (allowed : Char → Prop) : List Char → Prop where
  | entity {name : String} (known : name ∈ predefinedEntities) :
    IsReference allowed ('&' :: name.toList ++ [';'])
  | number {base : Nat} {mark digits : List Char} {c : Char}
    (marked : (base, mark) ∈ referenceMarks) (nonempty : digits ≠ [])
    (spelled : Numeral.digits? base digits = some c.toNat) (fine : allowed c) :
    IsReference allowed ('&' :: '#' :: (mark ++ digits) ++ [';'])

/-- What a piece of markup is: an element of a name, or what stands between two tags. -/
inductive Part where
  | element (name : List Char)
  | content

/-- What must not stand in character data. -/
def sectionEnd : List Char := [']', ']', '>']

/-- Well-formed markup: elements with a single tag, or with content between two tags of one name;
in the content characters that begin no markup, references and elements. -/
inductive Markup (allowed : Char → Prop) : Part → List Char → Prop where
  | empty {name : List Char} (named : IsName name) :
    Markup allowed (.element name) ('<' :: name ++ ['/', '>'])
  | nested {name inner : List Char} (named : IsName name) (inside : Markup allowed .content inner) :
    Markup allowed (.element name) ('<' :: name ++ '>' :: inner ++ '<' :: '/' :: name ++ ['>'])
  | nil : Markup allowed .content []
  | character {c : Char} {rest : List Char} (fine : allowed c) (plain : c ≠ '<' ∧ c ≠ '&')
    (inSection : ¬ sectionEnd <+: c :: rest) (later : Markup allowed .content rest) :
    Markup allowed .content (c :: rest)
  | reference {text rest : List Char} (refers : IsReference allowed text)
    (later : Markup allowed .content rest) : Markup allowed .content (text ++ rest)
  | element {name text rest : List Char} (first : Markup allowed (.element name) text)
    (later : Markup allowed .content rest) : Markup allowed .content (text ++ rest)

/-- The declaration of the version and the encoding. -/
def versionDeclaration : String := "<?xml version=\"1.0\" encoding=\"UTF-8\"?>"

/-- The characters that may stand between the parts of a document. -/
def spaces : List Char := [' ', '\t', '\r', '\n']

/-- A document with the declaration and one element of a name. -/
structure IsDocument (allowed : Char → Prop) (name document : String) : Prop where
  parts : ∃ before element after, document.toList =
      versionDeclaration.toList ++ before ++ element ++ after ∧
    (∀ c ∈ before, c ∈ spaces) ∧ Markup allowed (.element name.toList) element ∧
    ∀ c ∈ after, c ∈ spaces

/-! ### Well-formed markup holds allowed characters only -/

theorem areAllowed_cons {c : Char} {rest : List Char} :
    AreAllowed (c :: rest) ↔ IsAllowed c ∧ AreAllowed rest := List.forall_mem_cons

theorem areAllowed_append {first second : List Char} :
    AreAllowed (first ++ second) ↔ AreAllowed first ∧ AreAllowed second := List.forall_mem_append

/-- Every range of the characters of names lies in one of the allowed ranges. -/
theorem isAllowed_of_nameRanges {c : Char} (named : IsWithin nameRanges c) : IsAllowed c := by
  have covered : ∀ range ∈ nameRanges, ∃ wide ∈ allowedRanges,
      wide.1 ≤ range.1 ∧ range.2 ≤ wide.2 := by decide
  obtain ⟨range, listed, least, greatest⟩ := named
  obtain ⟨wide, wideListed, lower, upper⟩ := covered range listed
  exact ⟨wide, wideListed, Nat.le_trans lower least, Nat.le_trans greatest upper⟩

theorem IsName.areAllowed {name : List Char} (named : IsName name) : AreAllowed name := by
  cases name with
  | nil => exact named.elim
  | cons first rest =>
    obtain ⟨⟨range, listed, bounds⟩, others⟩ := named
    refine areAllowed_cons.mpr ⟨?_, fun c member => isAllowed_of_nameRanges (others c member)⟩
    exact isAllowed_of_nameRanges ⟨range, List.mem_append_left _ listed, bounds⟩

/-- The digits of a number are digits. -/
theorem digitValue?_ne_none {base number : Nat} {digits : List Char}
    (spelled : Numeral.digits? base digits = some number) :
    ∀ c ∈ digits, Numeral.digitValue? c ≠ none := by
  induction digits using List.reverseRecOn generalizing number with
  | nil => exact fun c member => absurd member List.not_mem_nil
  | append_singleton before last hypothesis =>
    rw [Numeral.digits?_append_singleton] at spelled
    obtain ⟨value, earlier, rest⟩ := Option.bind_eq_some_iff.mp spelled
    obtain ⟨digit, known, -⟩ := Option.bind_eq_some_iff.mp rest
    intro c member
    rcases List.mem_append.mp member with member | member
    · exact hypothesis earlier c member
    · rw [List.mem_singleton.mp member, known]
      exact Option.some_ne_none digit

theorem isAllowed_of_digit {c : Char} (digit : Numeral.digitValue? c ≠ none) : IsAllowed c := by
  have between (first last : Char) (inside : (decide (first ≤ c) && decide (c ≤ last)) = true)
      (visible : 0x20 ≤ first.toNat ∧ last.toNat ≤ 0xD7FF) : IsAllowed c := by
    simp only [Bool.and_eq_true, decide_eq_true_eq] at inside
    have least : first.toNat ≤ c.toNat := UInt32.le_iff_toNat_le.mp inside.1
    have greatest : c.toNat ≤ last.toNat := UInt32.le_iff_toNat_le.mp inside.2
    exact ⟨(0x20, 0xD7FF), by decide, Nat.le_trans visible.1 least,
      Nat.le_trans greatest visible.2⟩
  unfold Numeral.digitValue? at digit
  split at digit
  next decimal => exact between '0' '9' decimal (by decide)
  next =>
    split at digit
    next lower => exact between 'a' 'f' lower (by decide)
    next =>
      split at digit
      next upper => exact between 'A' 'F' upper (by decide)
      next => exact absurd rfl digit

theorem IsReference.areAllowed {text : List Char} (refers : IsReference IsAllowed text) :
    AreAllowed text := by
  cases refers with
  | entity known =>
    have each : ∀ name ∈ predefinedEntities, AreAllowed ('&' :: name.toList ++ [';']) := by
      decide +kernel
    exact each _ known
  | number marked _ spelled _ =>
    have marks : ∀ pair ∈ referenceMarks, AreAllowed pair.2 := by decide
    simp only [areAllowed_append, areAllowed_cons]
    exact ⟨⟨by decide, by decide, marks _ marked,
      fun c member => isAllowed_of_digit (digitValue?_ne_none spelled c member)⟩, by decide⟩

/-- Well-formed markup holds allowed characters only. -/
theorem Markup.areAllowed {part : Part} {text : List Char}
    (markup : Markup IsAllowed part text) : AreAllowed text := by
  have opening : IsAllowed '<' := by decide
  have slash : IsAllowed '/' := by decide
  have closing : IsAllowed '>' := by decide
  have nothing : AreAllowed [] := by decide
  induction markup with
  | empty named =>
    simp only [areAllowed_append, areAllowed_cons]
    exact ⟨⟨opening, named.areAllowed⟩, slash, closing, nothing⟩
  | nested named _ inside =>
    have named := named.areAllowed
    simp only [areAllowed_append, areAllowed_cons]
    exact ⟨⟨⟨⟨opening, named⟩, closing, inside⟩, opening, slash, named⟩, closing, nothing⟩
  | nil => exact nothing
  | character fine _ _ _ later => exact areAllowed_cons.mpr ⟨fine, later⟩
  | reference refers _ later => exact areAllowed_append.mpr ⟨refers.areAllowed, later⟩
  | element _ _ first later => exact areAllowed_append.mpr ⟨first, later⟩

/-- A document holds allowed characters only. -/
theorem IsDocument.areAllowed {name document : String}
    (wellFormed : IsDocument IsAllowed name document) : AreAllowed document.toList := by
  have declared : AreAllowed versionDeclaration.toList := by decide +kernel
  have spaced : AreAllowed spaces := by decide
  obtain ⟨before, element, after, whole, blank, markup, blank'⟩ := wellFormed.parts
  rw [whole]
  simp only [areAllowed_append]
  exact ⟨⟨⟨declared, fun c member => spaced c (blank c member)⟩, markup.areAllowed⟩,
    fun c member => spaced c (blank' c member)⟩

/-! ### Texts are written as content -/

variable {allowed : Char → Prop}

/-- The characters that are written around texts, or as numbers, are allowed. -/
structure AllowsLayout (allowed : Char → Prop) : Prop where
  space : allowed ' '
  newline : allowed '\n'
  carriageReturn : allowed '\r'

/-- Content may have characters before it that end no section. -/
theorem Markup.characters {text rest : List Char}
    (each : ∀ c ∈ text, allowed c ∧ c ∉ ['<', '&', ']']) (later : Markup allowed .content rest) :
    Markup allowed .content (text ++ rest) := by
  induction text with
  | nil => exact later
  | cons c text hypothesis =>
    obtain ⟨⟨fine, free⟩, others⟩ := List.forall_mem_cons.mp each
    refine .character fine ?_ ?_ (hypothesis others)
    · simp_all
    · rintro ⟨_, same⟩
      exact free (by rw [← (List.cons.inj same).1]; decide)

/-- A character is written as a reference, or it stands for itself. -/
theorem escapeChar_cases (layout : AllowsLayout allowed) (c : Char) :
    IsReference allowed (escapeChar c) ∨ escapeChar c = [c] ∧ c ∉ ['<', '&', '>'] := by
  unfold escapeChar
  split
  case h_1 => exact .inl (@IsReference.entity allowed "amp" (by decide))
  case h_2 => exact .inl (@IsReference.entity allowed "lt" (by decide))
  case h_3 => exact .inl (@IsReference.entity allowed "gt" (by decide))
  case h_4 => exact .inl (@IsReference.entity allowed "quot" (by decide))
  case h_5 => exact .inl (@IsReference.entity allowed "apos" (by decide))
  case h_6 =>
    exact .inl (@IsReference.number allowed 10 [] ['1', '3'] '\r' (by decide) (by decide) rfl
      layout.carriageReturn)
  case h_7 => exact .inr ⟨rfl, by simp_all⟩

/-- An escaped text does not hold the end of a tag. -/
theorem greater_not_mem_escapeText (text : List Char) : '>' ∉ escapeText text := by
  intro member
  obtain ⟨c, -, written⟩ := List.mem_flatMap.mp member
  unfold escapeChar at written
  split at written
  case h_7 _ _ other _ _ _ => exact other (List.mem_singleton.mp written).symm
  all_goals simp at written

/-- An escaped text is content. -/
theorem markup_escapeText (layout : AllowsLayout allowed) {text : List Char}
    (fine : ∀ c ∈ text, allowed c) : Markup allowed .content (escapeText text) := by
  induction text with
  | nil => exact .nil
  | cons c text hypothesis =>
    obtain ⟨here, others⟩ := List.forall_mem_cons.mp fine
    have later := hypothesis others
    have free := greater_not_mem_escapeText (c :: text)
    rw [escapeText_cons] at free ⊢
    rcases escapeChar_cases layout c with refers | ⟨plain, ordinary⟩
    · exact .reference refers later
    · rw [plain] at free ⊢
      refine .character here (by simp_all) (fun inSection => ?_) later
      exact free (inSection.subset (by decide))

/-! ### Trees are written as nested tags -/

namespace Element

mutual

/-- The names of an element and of the elements in it. -/
def names : Element → List String
  | .empty name | .text name _ => [name]
  | .block name children => name :: namesOf children

/-- The names of elements side by side and of the elements in them. -/
def namesOf : List Element → List String
  | [] => []
  | first :: rest => first.names ++ namesOf rest

end

mutual

/-- The texts in an element. -/
def texts : Element → List String
  | .empty _ => []
  | .text _ content => [content]
  | .block _ children => textsOf children

/-- The texts in elements side by side. -/
def textsOf : List Element → List String
  | [] => []
  | first :: rest => first.texts ++ textsOf rest

end

theorem namesOf_eq (elements : List Element) : namesOf elements = elements.flatMap names := by
  induction elements with
  | nil => rfl
  | cons first rest hypothesis => rw [namesOf, hypothesis, List.flatMap_cons]

theorem textsOf_eq (elements : List Element) : textsOf elements = elements.flatMap texts := by
  induction elements with
  | nil => rfl
  | cons first rest hypothesis => rw [textsOf, hypothesis, List.flatMap_cons]

end Element

theorem markup_indentation (layout : AllowsLayout allowed) (depth : Nat) {rest : List Char}
    (later : Markup allowed .content rest) :
    Markup allowed .content (indentation depth ++ rest) := by
  refine later.characters fun c member => ?_
  rw [List.eq_of_mem_replicate member]
  exact ⟨layout.space, by decide⟩

theorem markup_newline (layout : AllowsLayout allowed) {rest : List Char}
    (later : Markup allowed .content rest) : Markup allowed .content ('\n' :: rest) :=
  later.characters (List.forall_mem_singleton.mpr ⟨layout.newline, by decide⟩)

mutual

/-- The lines of an element are the element, indented and with a line break behind it. -/
theorem exists_markup_renderAt (layout : AllowsLayout allowed) (depth : Nat) :
    (element : Element) → (∀ name ∈ element.names, IsName name.toList) →
    (∀ text ∈ element.texts, ∀ c ∈ text.toList, allowed c) →
    ∃ text, renderAt depth element = indentation depth ++ text ++ ['\n'] ∧
      Markup allowed (.element element.name.toList) text
  | .empty name, named, _ => by
    refine ⟨emptyTag name, rfl, .empty (named name ?_)⟩
    exact List.mem_singleton_self name
  | .text name content, named, fine => by
    have content := markup_escapeText layout (fine content (List.mem_singleton_self _))
    refine ⟨_, ?_, .nested (named name (List.mem_singleton_self _)) content⟩
    simp only [Element.name, renderAt, startTag, endTag, List.append_assoc, List.cons_append,
      List.nil_append]
  | .block name children, named, fine => by
    have lines := markup_renderAll layout (depth + 1) children
      (fun other member => named other (List.mem_cons_of_mem _ member)) fine
      (markup_indentation layout depth .nil)
    refine ⟨_, ?_, .nested (named name List.mem_cons_self) (markup_newline layout lines)⟩
    simp only [Element.name, renderAt, startTag, endTag, List.append_assoc, List.cons_append,
      List.nil_append]

/-- The lines of elements side by side stand before content as content. -/
theorem markup_renderAll (layout : AllowsLayout allowed) (depth : Nat) :
    (elements : List Element) → (∀ name ∈ Element.namesOf elements, IsName name.toList) →
    (∀ text ∈ Element.textsOf elements, ∀ c ∈ text.toList, allowed c) →
    ∀ {rest : List Char}, Markup allowed .content rest →
      Markup allowed .content (renderAll depth elements ++ rest)
  | [], _, _, _, later => later
  | first :: others, named, fine, rest, later => by
    rw [Element.namesOf, List.forall_mem_append] at named
    rw [Element.textsOf, List.forall_mem_append] at fine
    obtain ⟨text, lines, markup⟩ := exists_markup_renderAt layout depth first named.1 fine.1
    have below := markup_renderAll layout depth others named.2 fine.2 later
    rw [renderAll, lines, List.append_assoc, List.append_assoc, List.append_assoc]
    exact markup_indentation layout depth (.element markup (markup_newline layout below))

end

/-- **A written document is well formed, if its texts are.** -/
theorem isDocument_renderDocument (layout : AllowsLayout allowed) {root : Element}
    (named : ∀ name ∈ root.names, IsName name.toList)
    (fine : ∀ text ∈ root.texts, ∀ c ∈ text.toList, allowed c) :
    IsDocument allowed root.name (renderDocument root) := by
  obtain ⟨text, lines, markup⟩ := exists_markup_renderAt layout 0 root named fine
  have lineBreak : ∀ c ∈ ['\n'], c ∈ spaces := List.forall_mem_singleton.mpr (by decide)
  refine ⟨['\n'], text, ['\n'], ?_, lineBreak, markup, lineBreak⟩
  have declared : declaration.toList = versionDeclaration.toList ++ ['\n'] := by decide +kernel
  have unindented : indentation 0 = [] := rfl
  rw [renderDocument, String.toList_ofList, lines, declared, unindented, List.nil_append,
    List.append_assoc, List.append_assoc, List.append_assoc]

/-! ### Nothing of a text is left out -/

mutual

/-- The texts in an element stand in its lines. -/
theorem escapeText_infix_renderAt {text : String} (depth : Nat) :
    (element : Element) → text ∈ element.texts →
      escapeText text.toList <:+: renderAt depth element
  | .text name content, member => by
    rw [List.mem_singleton.mp member, renderAt, List.append_assoc _ (endTag name)]
    exact List.infix_append _ _ _
  | .block name children, member => by
    rw [renderAt, List.append_assoc _ (endTag name), List.append_assoc _ (indentation depth)]
    exact (escapeText_infix_renderAll (depth + 1) children member).trans (List.infix_append _ _ _)

/-- The texts in elements side by side stand in their lines. -/
theorem escapeText_infix_renderAll {text : String} (depth : Nat) :
    (elements : List Element) → text ∈ Element.textsOf elements →
      escapeText text.toList <:+: renderAll depth elements
  | first :: others, member => by
    rw [renderAll]
    rcases List.mem_append.mp member with here | later
    · exact (escapeText_infix_renderAt depth first here).trans (List.prefix_append _ _).isInfix
    · exact (escapeText_infix_renderAll depth others later).trans (List.suffix_append _ _).isInfix

end

/-- Every character of a text is allowed, or it stands in the escaped text. -/
theorem isAllowed_or_mem_escapeText {c : Char} {text : List Char} (member : c ∈ text) :
    IsAllowed c ∨ c ∈ escapeText text := by
  by_cases plain : escapeChar c = [c]
  · exact .inr (List.mem_flatMap.mpr ⟨c, member, plain ▸ List.mem_singleton_self c⟩)
  · refine .inl ?_
    unfold escapeChar at plain
    split at plain
    case h_7 => exact absurd rfl plain
    all_goals decide

/-- **A written document is well formed exactly if its texts hold allowed characters only.** -/
theorem isDocument_renderDocument_iff {root : Element}
    (named : ∀ name ∈ root.names, IsName name.toList) :
    IsDocument IsAllowed root.name (renderDocument root) ↔
      ∀ text ∈ root.texts, ∀ c ∈ text.toList, IsAllowed c := by
  constructor
  · intro wellFormed text shown c member
    rcases isAllowed_or_mem_escapeText member with fine | written
    · exact fine
    · refine wellFormed.areAllowed c ?_
      rw [renderDocument, String.toList_ofList]
      exact List.mem_append_right _ ((escapeText_infix_renderAt 0 root shown).subset written)
  · exact isDocument_renderDocument ⟨by decide, by decide, by decide⟩ named

end ExtensionCatalog.Xml
