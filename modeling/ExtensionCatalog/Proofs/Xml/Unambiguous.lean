/-
**Written elements can be told apart.**

A text and a list of elements can look alike: the text may be the line break that stands in an
element without children. They cannot if the name of an element says which of the two it holds.
Then what is written determines the element and what follows it, whatever the texts hold.

* `escapeText_injective`: an escaped text determines the text;
* `not_mem_escapeText`: an escaped text does not hold the start of a tag;
* `Element.Fits`: names without marks, which say what the elements hold;
* `renderAt_append_inj`: **the lines of an element determine the element and what follows it**;
* `renderDocument_inj`: so does a document.
-/

import ExtensionCatalog.Xml

namespace ExtensionCatalog.Xml

/-! ### Texts -/

/-- The first character of an escaped text, and what follows it. -/
def readChar? : List Char → Option (Char × List Char)
  | [] => none
  | '&' :: 'a' :: 'm' :: 'p' :: ';' :: rest => some ('&', rest)
  | '&' :: 'l' :: 't' :: ';' :: rest => some ('<', rest)
  | '&' :: 'g' :: 't' :: ';' :: rest => some ('>', rest)
  | '&' :: 'q' :: 'u' :: 'o' :: 't' :: ';' :: rest => some ('"', rest)
  | '&' :: 'a' :: 'p' :: 'o' :: 's' :: ';' :: rest => some ('\'', rest)
  | '&' :: '#' :: '1' :: '3' :: ';' :: rest => some ('\r', rest)
  | c :: rest => some (c, rest)

theorem readChar?_escapeChar (c : Char) (rest : List Char) :
    readChar? (escapeChar c ++ rest) = some (c, rest) := by
  unfold escapeChar
  split
  case h_7 ampersand _ _ _ _ _ =>
    -- Only an ampersand starts a reference.
    show readChar? (c :: rest) = _
    unfold readChar?
    split <;> simp_all
  all_goals rfl

theorem escapeText_cons (c : Char) (text : List Char) :
    escapeText (c :: text) = escapeChar c ++ escapeText text := List.flatMap_cons

theorem escapeChar_ne_nil (c : Char) : escapeChar c ≠ [] := by
  unfold escapeChar
  split <;> simp

/-- An escaped text determines the text. -/
theorem escapeText_injective : Function.Injective escapeText := by
  intro text other same
  induction text generalizing other with
  | nil =>
    cases other with
    | nil => rfl
    | cons c other =>
      rw [escapeText_cons] at same
      exact absurd (List.append_eq_nil_iff.mp same.symm).1 (escapeChar_ne_nil c)
  | cons c text hypothesis =>
    cases other with
    | nil =>
      rw [escapeText_cons] at same
      exact absurd (List.append_eq_nil_iff.mp same).1 (escapeChar_ne_nil c)
    | cons d other =>
      have read := congrArg readChar? same
      rw [escapeText_cons, escapeText_cons, readChar?_escapeChar, readChar?_escapeChar] at read
      injection read with read
      injection read with first rest
      rw [first, hypothesis rest]

/-- An escaped text does not hold the start of a tag. -/
theorem not_mem_escapeText (text : List Char) : '<' ∉ escapeText text := by
  intro member
  obtain ⟨c, -, written⟩ := List.mem_flatMap.mp member
  unfold escapeChar at written
  split at written
  case h_7 _ other _ _ _ _ => exact other (List.mem_singleton.mp written).symm
  all_goals simp at written

/-- Texts without marks are told apart by the marks that follow them. -/
theorem eq_of_append_mark (marks : List Char) {text other rest rest' : List Char}
    {mark mark' : Char} (free : ∀ c ∈ text, c ∉ marks) (free' : ∀ c ∈ other, c ∉ marks)
    (marked : mark ∈ marks) (marked' : mark' ∈ marks)
    (same : text ++ mark :: rest = other ++ mark' :: rest') :
    text = other ∧ mark = mark' ∧ rest = rest' := by
  induction text generalizing other with
  | nil =>
    cases other with
    | nil => exact ⟨rfl, List.cons.inj same⟩
    | cons c other =>
      have first : mark = c := (List.cons.inj same).1
      exact absurd (first ▸ marked) (free' c List.mem_cons_self)
  | cons c text hypothesis =>
    cases other with
    | nil =>
      have first : c = mark' := (List.cons.inj same).1
      exact absurd (first ▸ marked') (free c List.mem_cons_self)
    | cons d other =>
      obtain ⟨first, others⟩ := List.cons.inj same
      obtain ⟨texts, rests⟩ := hypothesis (fun c member => free c (List.mem_cons_of_mem _ member))
        (fun c member => free' c (List.mem_cons_of_mem _ member)) others
      exact ⟨by rw [first, texts], rests⟩

/-- An escaped text with an end tag after it determines the text and what follows the tag. -/
theorem escapeText_append_inj {text other rest rest' : List Char} {name : String}
    (same : escapeText text ++ (endTag name ++ rest) = escapeText other ++ (endTag name ++ rest')) :
    text = other ∧ rest = rest' := by
  have free : ∀ text, ∀ c ∈ escapeText text, c ∉ ['<'] := by
    intro text c member equal
    rw [List.mem_singleton.mp equal] at member
    exact not_mem_escapeText text member
  obtain ⟨texts, -, rests⟩ := eq_of_append_mark ['<'] (free text) (free other)
    (List.mem_singleton_self '<') (List.mem_singleton_self '<') same
  exact ⟨escapeText_injective texts, List.append_cancel_left rests⟩

/-! ### Elements -/

/-- The characters that end a name in a tag. -/
def nameMarks : List Char := ['/', '>']

/-- The name holds no character that would end it. -/
def IsPlainName (name : String) : Prop := ∀ c ∈ name.toList, c ∉ nameMarks

instance (name : String) : Decidable (IsPlainName name) :=
  List.decidableBAll (fun c => c ∉ nameMarks) name.toList

/-- The names of an element and those in it are plain, and the elements that hold a text are those
whose names are in `texts`. An element of any name may be empty. -/
inductive Element.Fits (texts : List String) : Element → Prop where
  | empty {name : String} (plain : IsPlainName name) : Fits texts (.empty name)
  | text {name content : String} (plain : IsPlainName name) (listed : name ∈ texts) :
    Fits texts (.text name content)
  | block {name : String} {children : List Element} (plain : IsPlainName name)
    (unlisted : name ∉ texts) (each : ∀ child ∈ children, Fits texts child) :
    Fits texts (.block name children)

namespace Element

def name : Element → String
  | .empty name | .text name _ | .block name _ => name

/-- What is written of an element at a depth after the name in its first tag. -/
def afterName (depth : Nat) : Element → List Char
  | .empty _ => ['/', '>', '\n']
  | .text name content => '>' :: (escapeText content.toList ++ endTag name ++ ['\n'])
  | .block name children =>
    '>' :: '\n' :: (renderAll (depth + 1) children ++ indentation depth ++ endTag name ++ ['\n'])

theorem renderAt_eq (depth : Nat) (element : Element) :
    renderAt depth element =
      indentation depth ++ '<' :: (element.name.toList ++ element.afterName depth) := by
  cases element <;> simp [renderAt, name, afterName, startTag, emptyTag]

/-- A mark follows the name. -/
theorem exists_afterName_eq (depth : Nat) (element : Element) :
    ∃ mark ∈ nameMarks, ∃ rest, element.afterName depth = mark :: rest := by
  cases element with
  | empty name => exact ⟨'/', by decide, _, rfl⟩
  | text name content => exact ⟨'>', by decide, _, rfl⟩
  | block name children => exact ⟨'>', by decide, _, rfl⟩

theorem Fits.plain {texts : List String} {element : Element} (fits : element.Fits texts) :
    IsPlainName element.name := by
  cases fits <;> assumption

end Element

open Element

variable {texts : List String} {depth : Nat}

/-- The lines of an element determine its name. -/
theorem name_eq_of_renderAt {element other : Element} (fits : element.Fits texts)
    (fits' : other.Fits texts) {rest rest' : List Char}
    (same : renderAt depth element ++ rest = renderAt depth other ++ rest') :
    element.name = other.name ∧
      element.afterName depth ++ rest = other.afterName depth ++ rest' := by
  rw [renderAt_eq, renderAt_eq, List.append_assoc, List.append_assoc, List.cons_append,
    List.cons_append, List.append_assoc, List.append_assoc] at same
  have named := (List.cons.inj (List.append_cancel_left same)).2
  obtain ⟨mark, marked, after, written⟩ := exists_afterName_eq depth element
  obtain ⟨mark', marked', after', written'⟩ := exists_afterName_eq depth other
  rw [written, written', List.cons_append, List.cons_append] at named ⊢
  obtain ⟨names, marks, rests⟩ :=
    eq_of_append_mark nameMarks fits.plain fits'.plain marked marked' named
  exact ⟨String.toList_inj.mp names, by rw [marks, rests]⟩

/-- No element starts like an end tag one level up. -/
theorem endTag_ne_renderAt (element : Element) (rest rest' : List Char) :
    indentation depth ++ '<' :: rest ≠ renderAt (depth + 1) element ++ rest' := by
  intro same
  have deeper : indentation (depth + 1) = indentation depth ++ List.replicate 4 ' ' := by
    unfold indentation
    rw [List.replicate_append_replicate, Nat.mul_add]
  rw [renderAt_eq, deeper, List.append_assoc, List.append_assoc] at same
  have first := (List.cons.inj (List.append_cancel_left same)).1
  exact absurd first (by decide)

/-- The lines of elements with an end tag after them determine the elements and what follows the
tag, if each of their elements has this property. -/
theorem renderAll_append_inj {name : String} {children others : List Element}
    (each : ∀ child ∈ children, ∀ other ∈ others, ∀ rest rest' : List Char,
      renderAt (depth + 1) child ++ rest = renderAt (depth + 1) other ++ rest' →
        child = other ∧ rest = rest')
    {rest rest' : List Char}
    (same : renderAll (depth + 1) children ++ (indentation depth ++ (endTag name ++ rest)) =
      renderAll (depth + 1) others ++ (indentation depth ++ (endTag name ++ rest'))) :
    children = others ∧ rest = rest' := by
  induction children generalizing others with
  | nil =>
    cases others with
    | nil => exact ⟨rfl, List.append_cancel_left (List.append_cancel_left same)⟩
    | cons other others =>
      rw [renderAll, renderAll, List.append_assoc] at same
      exact absurd same (endTag_ne_renderAt other _ _)
  | cons child children hypothesis =>
    cases others with
    | nil =>
      rw [renderAll, renderAll, List.append_assoc] at same
      exact absurd same.symm (endTag_ne_renderAt child _ _)
    | cons other others =>
      rw [renderAll, renderAll, List.append_assoc, List.append_assoc] at same
      obtain ⟨first, later⟩ :=
        each child List.mem_cons_self other List.mem_cons_self _ _ same
      obtain ⟨remaining, rests⟩ := hypothesis (fun child member other member' =>
        each child (List.mem_cons_of_mem _ member) other (List.mem_cons_of_mem _ member')) later
      exact ⟨by rw [first, remaining], rests⟩

/-- **The lines of an element determine the element and what follows it**, if it is agreed which
names are those of elements that hold a text. -/
theorem renderAt_append_inj {element other : Element} (fits : element.Fits texts)
    (fits' : other.Fits texts) {rest rest' : List Char}
    (same : renderAt depth element ++ rest = renderAt depth other ++ rest') :
    element = other ∧ rest = rest' := by
  induction fits generalizing depth other rest rest' with
  | empty plain =>
    obtain ⟨named, after⟩ := name_eq_of_renderAt (.empty plain) fits' same
    cases fits' with
    | empty _ =>
      cases named
      exact ⟨rfl, List.append_cancel_left after⟩
    | text _ _ => exact absurd (List.cons.inj after).1 (by decide)
    | block _ _ _ => exact absurd (List.cons.inj after).1 (by decide)
  | text plain listed =>
    obtain ⟨named, after⟩ := name_eq_of_renderAt (.text plain listed) fits' same
    cases fits' with
    | empty _ => exact absurd (List.cons.inj after).1 (by decide)
    | text _ _ =>
      cases named
      simp only [afterName, List.cons_append, List.append_assoc] at after
      obtain ⟨contents, rests⟩ := escapeText_append_inj (List.cons.inj after).2
      rw [String.toList_inj.mp contents]
      exact ⟨rfl, (List.cons.inj rests).2⟩
    | block _ unlisted _ =>
      cases named
      exact absurd listed unlisted
  | block plain unlisted each hypothesis =>
    obtain ⟨named, after⟩ := name_eq_of_renderAt (.block plain unlisted each) fits' same
    cases fits' with
    | empty _ => exact absurd (List.cons.inj after).1 (by decide)
    | text _ listed =>
      cases named
      exact absurd listed unlisted
    | block _ _ each' =>
      cases named
      simp only [afterName, List.cons_append, List.append_assoc] at after
      have inner := (List.cons.inj (List.cons.inj after).2).2
      obtain ⟨children, rests⟩ := renderAll_append_inj (fun child member other member' _ _ =>
        hypothesis child member (each' other member')) inner
      rw [children]
      exact ⟨rfl, (List.cons.inj rests).2⟩

/-- A document determines its root element. -/
theorem renderDocument_inj {root other : Element} (fits : root.Fits texts)
    (fits' : other.Fits texts) (same : renderDocument root = renderDocument other) :
    root = other := by
  have lines := List.append_cancel_left (String.ofList_inj.mp same)
  exact (renderAt_append_inj fits fits' (congrArg (· ++ []) lines)).1

end ExtensionCatalog.Xml
