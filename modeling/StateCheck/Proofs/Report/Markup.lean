import Mathlib.Data.List.Infix
import StateCheck.Number.Natural
/-!
A reader of markup.

The reader goes through a document one character after the other (`Reader.step?`). It keeps the
elements that are open, the innermost first, with what it has read of them, and what the next
character may belong to. Entities count in texts and in values alone, and a document has one element
outside of all others (`Element.read?`). What a run of characters does is put together from what its
parts do (`Reader.Reads.trans`).
-/
namespace StateCheck.Markup
set_option autoImplicit false

/-! ## Entities -/

/-- The entities with the characters that they stand for. -/
def entities : List (String × Char) :=
  [("&amp;", '&'), ("&lt;", '<'), ("&gt;", '>'), ("&quot;", '"'), ("&apos;", '\'')]

/-- A text with its entities replaced in one pass; nothing else may begin with an ampersand. -/
def decode? : List Char → Option (List Char)
  | [] => some []
  | '&' :: 'a' :: 'm' :: 'p' :: ';' :: rest => (decode? rest).map ('&' :: ·)
  | '&' :: 'l' :: 't' :: ';' :: rest => (decode? rest).map ('<' :: ·)
  | '&' :: 'g' :: 't' :: ';' :: rest => (decode? rest).map ('>' :: ·)
  | '&' :: 'q' :: 'u' :: 'o' :: 't' :: ';' :: rest => (decode? rest).map ('"' :: ·)
  | '&' :: 'a' :: 'p' :: 'o' :: 's' :: ';' :: rest => (decode? rest).map ('\'' :: ·)
  | '&' :: _ => none
  | c :: rest => (decode? rest).map (c :: ·)

theorem decode?_entity {entity : String × Char} (h : entity ∈ entities) (rest : List Char) :
    decode? (entity.1.toList ++ rest) = (decode? rest).map (entity.2 :: ·) := by
  simp only [entities, List.mem_cons, List.not_mem_nil, or_false] at h
  obtain rfl | rfl | rfl | rfl | rfl := h <;> rfl

theorem decode?_cons {c : Char} (h : c ≠ '&') (rest : List Char) :
    decode? (c :: rest) = (decode? rest).map (c :: ·) := by
  rw [decode?.eq_def]
  split <;> simp_all

theorem decode?_of_not_mem {cs : List Char} (h : '&' ∉ cs) : decode? cs = some cs := by
  induction cs with
  | nil => rfl
  | cons c cs ih =>
    obtain ⟨hc, hcs⟩ := List.ne_and_not_mem_of_not_mem_cons h
    rw [decode?_cons hc.symm, ih hcs]
    rfl

/-! ## Elements -/

structure Element where
  name : String
  attributes : List (String × String)
  /-- The text in it, without that of the elements in it. -/
  text : String
  children : List Element

namespace Element

def addText (e : Element) (cs : List Char) : Element :=
  { e with text := e.text ++ String.ofList cs }

def addAttribute (e : Element) (name value : String) : Element :=
  { e with attributes := e.attributes ++ [(name, value)] }

def hasAttribute (e : Element) (name : String) : Bool := e.attributes.any (·.1 == name)

def addChild (e child : Element) : Element := { e with children := e.children ++ [child] }

def start (name : String) : Element := ⟨name, [], "", []⟩

/-- Elements on lines of their own, each behind the same text. -/
def addLines (e : Element) (indent : List Char) : List Element → Element
  | [] => e
  | child :: rest => ((e.addText indent).addChild child).addLines indent rest

theorem addLines_fields (e : Element) (indent : List Char) (children : List Element) :
    (e.addLines indent children).name = e.name ∧
    (e.addLines indent children).attributes = e.attributes ∧
    (e.addLines indent children).children = e.children ++ children := by
  induction children generalizing e with
  | nil => exact ⟨rfl, rfl, (List.append_nil _).symm⟩
  | cons child rest ih =>
    obtain ⟨hname, hattributes, hchildren⟩ := ih ((e.addText indent).addChild child)
    refine ⟨hname, hattributes, ?_⟩
    rw [addLines, hchildren, addChild, List.append_assoc]
    rfl

mutual

/-- The elements of a name in an element, itself included, as their tags begin. -/
def named (name : String) : Element → List Element
  | ⟨own, attributes, text, children⟩ =>
    (if own = name then [⟨own, attributes, text, children⟩] else []) ++ allNamed name children

def allNamed (name : String) : List Element → List Element
  | [] => []
  | e :: rest => named name e ++ allNamed name rest

end

theorem named_eq (name : String) (e : Element) :
    e.named name = (if e.name = name then [e] else []) ++ e.children.flatMap (named name) := by
  have hall : ∀ es, allNamed name es = es.flatMap (named name) := by
    intro es
    induction es with
    | nil => rfl
    | cons e rest ih => rw [allNamed, ih, List.flatMap_cons]
  cases e
  rw [named, hall]

end Element

/-! ## The reader -/

def isSpace (c : Char) : Bool := c == ' ' || c == '\t' || c == '\n' || c == '\r'

def isNameChar (c : Char) : Bool := c.isAlphanum || c == '-' || c == '_' || c == '.' || c == ':'

/-- A name of a tag or of an attribute. -/
def IsName (name : String) : Prop := name ≠ "" ∧ name.toList.all isNameChar

instance (name : String) : Decidable (IsName name) := inferInstanceAs (Decidable (_ ∧ _))

theorem IsName.chars {name : String} (h : IsName name) : ∀ c ∈ name.toList, isNameChar c :=
  List.all_eq_true.mp h.2

/-- Where the reader is, with what it has read of the part that it is in. -/
inductive Mode where
  | text (read : List Char)
  | tagName (read : List Char)
  | endName (read : List Char)
  /-- In a start tag, where an attribute may begin. -/
  | inTag (tag : Element)
  | attribute (tag : Element) (read : List Char)
  | assigned (tag : Element) (name : String)
  | value (tag : Element) (name : String) (quote : Char) (read : List Char)
  /-- In a start tag, behind an attribute. -/
  | valued (tag : Element)
  /-- Behind the slash of a tag that is start and end. -/
  | ended (tag : Element)
  | declaration
  /-- Behind a question mark of a declaration. -/
  | declared

structure Reader where
  /-- The elements that are open, the innermost first; the last stands for the document. -/
  opened : List Element
  mode : Mode

namespace Reader

/-- The text that was read, in the innermost element. -/
def addText? (read : List Char) : List Element → Option (List Element)
  | [] => none
  | e :: rest => (decode? read).map fun cs => e.addText cs :: rest

/-- The innermost element as the last one in the element around it, when it has the name. -/
def close? (name : String) : List Element → Option (List Element)
  | e :: parent :: rest => if e.name = name then some (parent.addChild e :: rest) else none
  | _ => none

/-- What follows in a start tag on its name or on an attribute. -/
def behind? (opened : List Element) (tag : Element) (c : Char) : Option Reader :=
  if c == '>' then some ⟨tag :: opened, .text []⟩
  else if c == '/' then some ⟨opened, .ended tag⟩
  else if isSpace c then some ⟨opened, .inTag tag⟩
  else none

def step? : Reader → Char → Option Reader
  | ⟨opened, .text read⟩, c =>
    if c == '<' then (addText? read opened).map fun opened => ⟨opened, .tagName []⟩
    else some ⟨opened, .text (read ++ [c])⟩
  | ⟨opened, .tagName read⟩, c =>
    -- A tag without a name may still be an end tag or a declaration.
    if isNameChar c then some ⟨opened, .tagName (read ++ [c])⟩
    else if !read.isEmpty then behind? opened (.start (String.ofList read)) c
    else if c == '/' then some ⟨opened, .endName []⟩
    else if c == '?' then some ⟨opened, .declaration⟩
    else none
  | ⟨opened, .endName read⟩, c =>
    if isNameChar c then some ⟨opened, .endName (read ++ [c])⟩
    else if c == '>' then
      (close? (String.ofList read) opened).map fun opened => ⟨opened, .text []⟩
    else none
  | ⟨opened, .inTag tag⟩, c =>
    if isNameChar c then some ⟨opened, .attribute tag [c]⟩ else behind? opened tag c
  | ⟨opened, .attribute tag read⟩, c =>
    if isNameChar c then some ⟨opened, .attribute tag (read ++ [c])⟩
    else if c == '=' && !tag.hasAttribute (String.ofList read) then
      some ⟨opened, .assigned tag (String.ofList read)⟩
    else none
  | ⟨opened, .assigned tag name⟩, c =>
    if c == '"' || c == '\'' then some ⟨opened, .value tag name c []⟩ else none
  | ⟨opened, .value tag name quote read⟩, c =>
    if c == quote then
      (decode? read).map fun cs => ⟨opened, .valued (tag.addAttribute name (String.ofList cs))⟩
    else if c == '<' then none
    else some ⟨opened, .value tag name quote (read ++ [c])⟩
  | ⟨opened, .valued tag⟩, c => behind? opened tag c
  | ⟨opened, .ended tag⟩, c =>
    if c == '>' then (close? tag.name (tag :: opened)).map fun opened => ⟨opened, .text []⟩
    else none
  | ⟨opened, .declaration⟩, c => some ⟨opened, if c == '?' then .declared else .declaration⟩
  | ⟨opened, .declared⟩, c => some ⟨opened, if c == '>' then .text [] else .declaration⟩

def root? (r : Reader) : Option Element :=
  match r.opened, r.mode with
  | [document], .text read =>
    match document.children with
    | [root] => if (document.text.toList ++ read).all isSpace then some root else none
    | _ => none
  | _, _ => none

end Reader

def Element.read? (text : String) : Option Element :=
  (text.toList.foldlM Reader.step? ⟨[.start ""], .text []⟩).bind Reader.root?

/-! ## Runs of the reader -/

namespace Reader

variable {r r' r'' : Reader} {cs cs' : List Char} {opened : List Element} {tag : Element}

/-- Reading these characters leads from one state to the other. -/
def Reads (r : Reader) (cs : List Char) (r' : Reader) : Prop := cs.foldlM step? r = some r'

theorem Reads.refl (r : Reader) : Reads r [] r := rfl

theorem Reads.trans (h : Reads r cs r') (h' : Reads r' cs' r'') : Reads r (cs ++ cs') r'' := by
  rw [Reads, List.foldlM_append, h]
  exact h'

theorem Reads.cons {c : Char} (h : step? r c = some r') (h' : Reads r' cs r'') :
    Reads r (c :: cs) r'' := by
  rw [Reads, List.foldlM_cons, h]
  exact h'

theorem Reads.single {c : Char} (h : step? r c = some r') : Reads r [c] r' := .cons h (.refl r')

theorem reads_part (part : List Char → Mode) (p : Char → Prop)
    (hstep : ∀ read c, p c → step? ⟨opened, part read⟩ c = some ⟨opened, part (read ++ [c])⟩)
    (hcs : ∀ c ∈ cs, p c) (read : List Char) :
    Reads ⟨opened, part read⟩ cs ⟨opened, part (read ++ cs)⟩ := by
  induction cs generalizing read with
  | nil =>
    rw [List.append_nil]
    exact .refl _
  | cons c cs ih =>
    obtain ⟨hc, hcs⟩ := List.forall_mem_cons.mp hcs
    have hrest := ih hcs (read ++ [c])
    rw [List.append_assoc] at hrest
    exact .cons (hstep read c hc) hrest

theorem reads_text (h : '<' ∉ cs) (read : List Char) :
    Reads ⟨opened, .text read⟩ cs ⟨opened, .text (read ++ cs)⟩ := by
  refine reads_part .text (· ≠ '<') (fun read c hc => ?_) ?_ read
  · rw [step?]
    exact if_neg (by simpa using hc)
  · exact fun c hc heq => h (heq ▸ hc)

theorem reads_opening {read text : List Char} (htext : decode? read = some text) (e : Element) :
    Reads ⟨e :: opened, .text read⟩ ['<'] ⟨e.addText text :: opened, .tagName []⟩ := by
  refine .single ?_
  rw [step?, addText?, htext]
  rfl

theorem reads_tagName {read text : List Char} (htext : decode? read = some text)
    (hcs : ∀ c ∈ cs, isNameChar c) (e : Element) :
    Reads ⟨e :: opened, .text read⟩ ('<' :: cs) ⟨e.addText text :: opened, .tagName cs⟩ := by
  refine (reads_opening htext e).trans (reads_part .tagName (isNameChar ·) ?_ hcs [])
  intro read c hc
  rw [step?]
  exact if_pos hc

theorem reads_declaration {read text : List Char} (htext : decode? read = some text)
    (hcs : '?' ∉ cs) (e : Element) :
    Reads ⟨e :: opened, .text read⟩ ('<' :: '?' :: cs ++ ['?', '>'])
      ⟨e.addText text :: opened, .text []⟩ := by
  have hstart : Reads ⟨e :: opened, .text read⟩ ['<', '?']
      ⟨e.addText text :: opened, .declaration⟩ := (reads_opening htext e).trans (.single rfl)
  have hread : Reads ⟨e.addText text :: opened, .declaration⟩ cs
      ⟨e.addText text :: opened, .declaration⟩ := by
    refine reads_part (fun _ => .declaration) (· ≠ '?') (fun read c hc => ?_) ?_ []
    · rw [step?, if_neg (by simpa using hc)]
    · exact fun c hc heq => hcs (heq ▸ hc)
  have hend : Reads ⟨e.addText text :: opened, .declaration⟩ ['?', '>']
      ⟨e.addText text :: opened, .text []⟩ := .cons rfl (.single rfl)
  exact (hstart.trans hread).trans hend

/-- Wherever what follows is that on the name of the tag or on an attribute. -/
def Behind (r : Reader) (opened : List Element) (tag : Element) : Prop :=
  ∀ c, isNameChar c = false → step? r c = behind? opened tag c

theorem behind_tagName {name : String} (h : name ≠ "") :
    Behind ⟨opened, .tagName name.toList⟩ opened (.start name) := by
  intro c hc
  have hread : name.toList.isEmpty = false := by simpa using h
  rw [step?, hc, hread, String.ofList_toList]
  rfl

theorem behind_valued : Behind ⟨opened, .valued tag⟩ opened tag := fun _ _ => rfl

theorem Behind.attribute (h : Behind r opened tag) {name : String} (hname : IsName name)
    (hnew : tag.hasAttribute name = false) {value text : List Char}
    (htext : decode? value = some text) (hvalue : ∀ c ∈ value, c ≠ '"' ∧ c ≠ '<') :
    Reads r (' ' :: name.toList ++ '=' :: '"' :: value ++ ['"'])
      ⟨opened, .valued (tag.addAttribute name (String.ofList text))⟩ := by
  have hblank : Reads r [' '] ⟨opened, .inTag tag⟩ := .single (h ' ' rfl)
  have hread : Reads ⟨opened, .inTag tag⟩ name.toList ⟨opened, .attribute tag name.toList⟩ := by
    have hchars := hname.chars
    obtain ⟨c, cs, hcs⟩ := List.exists_cons_of_ne_nil (mt String.toList_eq_nil_iff.mp hname.1)
    rw [hcs] at hchars ⊢
    obtain ⟨hc, hcs⟩ := List.forall_mem_cons.mp hchars
    have hfirst : step? ⟨opened, .inTag tag⟩ c = some ⟨opened, .attribute tag [c]⟩ := by
      rw [step?]
      exact if_pos hc
    refine .cons hfirst (reads_part (.attribute tag) (isNameChar ·) ?_ hcs [c])
    intro read c hc
    rw [step?]
    exact if_pos hc
  have hassigned : Reads ⟨opened, .attribute tag name.toList⟩ ['=', '"']
      ⟨opened, .value tag name '"' []⟩ := by
    have hequals : step? ⟨opened, .attribute tag name.toList⟩ '=' =
        some ⟨opened, .assigned tag name⟩ := by
      rw [step?, String.ofList_toList, hnew]
      rfl
    exact .cons hequals (.single rfl)
  have hvalue : Reads ⟨opened, .value tag name '"' []⟩ value
      ⟨opened, .value tag name '"' value⟩ := by
    refine reads_part (.value tag name '"') (fun c => c ≠ '"' ∧ c ≠ '<') ?_ hvalue []
    intro read c hc
    rw [step?]
    simp [hc]
  have hend : Reads ⟨opened, .value tag name '"' value⟩ ['"']
      ⟨opened, .valued (tag.addAttribute name (String.ofList text))⟩ := by
    refine .single ?_
    rw [step?, htext]
    rfl
  have hall := (((hblank.trans hread).trans hassigned).trans hvalue).trans hend
  simpa using hall

theorem Behind.opens (h : Behind r opened tag) : Reads r ['>'] ⟨tag :: opened, .text []⟩ :=
  .single (h '>' rfl)

theorem close?_innermost (e parent : Element) :
    close? e.name (e :: parent :: opened) = some (parent.addChild e :: opened) :=
  if_pos rfl

theorem Behind.ends {parent : Element} (h : Behind r (parent :: opened) tag) :
    Reads r ['/', '>'] ⟨parent.addChild tag :: opened, .text []⟩ := by
  refine .cons (h '/' rfl) (.single ?_)
  show (close? tag.name _).map _ = _
  rw [close?_innermost]
  rfl

theorem reads_endTag {read text : List Char} (htext : decode? read = some text) {name : String}
    (hname : IsName name) {e : Element} (he : e.name = name) (parent : Element) :
    Reads ⟨e :: parent :: opened, .text read⟩ ('<' :: '/' :: name.toList ++ ['>'])
      ⟨parent.addChild (e.addText text) :: opened, .text []⟩ := by
  subst he
  have hstart : Reads ⟨e :: parent :: opened, .text read⟩ ['<', '/']
      ⟨e.addText text :: parent :: opened, .endName []⟩ :=
    (reads_opening htext e).trans (.single rfl)
  have hread : Reads ⟨e.addText text :: parent :: opened, .endName []⟩ e.name.toList
      ⟨e.addText text :: parent :: opened, .endName e.name.toList⟩ := by
    refine reads_part .endName (isNameChar ·) ?_ hname.chars []
    intro read c hc
    rw [step?]
    exact if_pos hc
  have hend : Reads ⟨e.addText text :: parent :: opened, .endName e.name.toList⟩ ['>']
      ⟨parent.addChild (e.addText text) :: opened, .text []⟩ := by
    refine .single ?_
    rw [step?, String.ofList_toList]
    show (close? (e.addText text).name _).map _ = _
    rw [close?_innermost]
    rfl
  exact (hstart.trans hread).trans hend

end Reader

end StateCheck.Markup
