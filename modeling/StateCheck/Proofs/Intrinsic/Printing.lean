import StateCheck.Proofs.Intrinsic.Calls
import StateCheck.Proofs.Number.Characters
/-!
Call trees and their texts.

`Intrinsic.Call.Printed` says which texts write a call: white space may stand between any two
tokens. Reading gives the call back from each of them, and accepts nothing but white space after the
closing parenthesis (`Intrinsic.parse_printed`). A number has to be one that its own text reads as,
and a path must not end early: its brackets and quotes are closed, and commas stand inside brackets
or quotes only (`Intrinsic.Balanced`).
-/
namespace StateCheck
set_option autoImplicit false

namespace Intrinsic

variable {c q : Char} {cs text rest blanks body inner : List Char} {depth : Nat} {arg : Arg}
  {args : List Arg} {call : Call} {v : Json}

/-! ## Balanced texts -/

def delimiters : List Char := ['\'', '"', '[', '(', ']', ')', ',']

/-- With `depth` brackets open before it, the text closes these and all of its own, and its quotes.
What is in quotes does not count, and a comma stands inside brackets only. -/
inductive Balanced : Nat → List Char → Prop
  | nil : Balanced 0 []
  | plain {depth : Nat} {c : Char} {cs : List Char} :
      c ∉ delimiters → Balanced depth cs → Balanced depth (c :: cs)
  | quoted {depth : Nat} {q : Char} {body cs : List Char} :
      q = '\'' ∨ q = '"' → q ∉ body → Balanced depth cs → Balanced depth (q :: (body ++ q :: cs))
  | opening {depth : Nat} {c : Char} {cs : List Char} :
      c = '[' ∨ c = '(' → Balanced (depth + 1) cs → Balanced depth (c :: cs)
  | closing {depth : Nat} {c : Char} {cs : List Char} :
      c = ']' ∨ c = ')' → Balanced depth cs → Balanced (depth + 1) (c :: cs)
  | comma {depth : Nat} {cs : List Char} :
      Balanced (depth + 1) cs → Balanced (depth + 1) (',' :: cs)

theorem balanced_of_plain (h : ∀ c ∈ cs, c ∉ delimiters) : Balanced 0 cs := by
  induction cs with
  | nil => exact .nil
  | cons c cs ih =>
    rw [List.forall_mem_cons] at h
    exact .plain h.1 (ih h.2)

def Takes (depth : Nat) (quote : Option Char) (text : List Char) (depth' : Nat)
    (quote' : Option Char) : Prop :=
  ∀ rest, splitToken depth quote (text ++ rest) =
    (text ++ (splitToken depth' quote' rest).1, (splitToken depth' quote' rest).2)

theorem Takes.append {first second : List Char} {d₁ d₂ d₃ : Nat} {q₁ q₂ q₃ : Option Char}
    (h : Takes d₁ q₁ first d₂ q₂) (h' : Takes d₂ q₂ second d₃ q₃) :
    Takes d₁ q₁ (first ++ second) d₃ q₃ := by
  intro rest
  rw [List.append_assoc, h, h', List.append_assoc]

theorem takes_plain (h : c ∉ delimiters) : Takes depth none [c] depth none := by
  intro rest
  simp only [delimiters, List.mem_cons, List.not_mem_nil, or_false, not_or] at h
  simp [splitToken, h]

theorem takes_opening (h : c = '[' ∨ c = '(') : Takes depth none [c] (depth + 1) none := by
  intro rest
  rcases h with rfl | rfl <;> simp [splitToken]

theorem takes_closing (h : c = ']' ∨ c = ')') : Takes (depth + 1) none [c] depth none := by
  intro rest
  rcases h with rfl | rfl <;> simp [splitToken]

theorem takes_comma : Takes (depth + 1) none [','] (depth + 1) none := by
  intro rest
  simp [splitToken]

theorem takes_quoted (hq : q = '\'' ∨ q = '"') (hbody : q ∉ body) :
    Takes depth none (q :: (body ++ [q])) depth none := by
  have hopen : Takes depth none [q] depth (some q) := by
    intro rest
    simp only [List.singleton_append, splitToken, if_pos hq]
  have hinside : Takes depth (some q) body depth (some q) := by
    induction body with
    | nil => exact fun _ => rfl
    | cons c body ih =>
      rw [List.mem_cons, not_or] at hbody
      have hc : Takes depth (some q) [c] depth (some q) := by
        intro rest
        simp only [List.singleton_append, splitToken, if_neg (Ne.symm hbody.1)]
      exact hc.append (ih hbody.2)
  have hclose : Takes depth (some q) [q] depth none := by
    intro rest
    simp only [List.singleton_append, splitToken, if_pos]
  exact hopen.append (hinside.append hclose)

theorem Balanced.takes (h : Balanced depth cs) : Takes depth none cs 0 none := by
  induction h with
  | nil => exact fun _ => rfl
  | plain hc _ ih => exact (takes_plain hc).append ih
  | quoted hq hbody _ ih => simpa using (takes_quoted hq hbody).append ih
  | opening hc _ ih => exact (takes_opening hc).append ih
  | closing hc _ ih => exact (takes_closing hc).append ih
  | comma _ ih => exact takes_comma.append ih

theorem readToken_of_balanced (h : Balanced 0 (c :: cs)) (hc : Text.isBlank c = false)
    (hlast : ∀ d, (c :: cs).getLast? = some d → Text.isBlank d = false) (hends : Ends rest) :
    readToken (c :: cs ++ rest) = (c :: cs, skipBlanks rest) := by
  have hhead : ∀ d, (c :: cs).head? = some d → Text.isBlank d = false := by
    rintro d ⟨⟩
    exact hc
  rw [readToken, h.takes, splitToken_of_ends hends]
  dsimp only
  rw [Text.trim_append hc (List.all_eq_true.mp List.all_takeWhile), Text.trim_of_ends hhead hlast]

theorem spelled_of_balanced (h : Balanced 0 (c :: cs)) (hc : Text.isBlank c = false)
    (hlast : ∀ d, (c :: cs).getLast? = some d → Text.isBlank d = false)
    (hread : ∀ n more, (readToken (c :: more)).1 = c :: cs →
      readArg (n + 1) (c :: more) = .ok (arg, (readToken (c :: more)).2)) :
    arg.Spelled (c :: cs) := by
  intro rest steps hends hsteps
  obtain ⟨steps, rfl⟩ : ∃ n, steps = n + 1 := ⟨steps - 1, by omega⟩
  have htoken := readToken_of_balanced h hc hlast hends
  refine ⟨skipBlanks rest, ?_, skipBlanks_skipBlanks rest⟩
  rw [List.cons_append] at htoken ⊢
  rw [skipBlanks_cons hc, hread steps (cs ++ rest) (by rw [htoken]), htoken]

/-! ## Printing -/

/-- A path that can be an argument. -/
structure IsPathText (cs : List Char) : Prop where
  root : cs.head? = some '$'
  last : ∀ c, cs.getLast? = some c → Text.isBlank c = false
  balanced : Balanced 0 cs

mutual
/-- The texts of an argument, without the white space around them. -/
inductive Arg.Printed : Arg → List Char → Prop
  | text (raw : String) :
      Arg.Printed (.text raw) ('\'' :: (guarded ['\'', '\\'] raw.toList ++ ['\'']))
  | literal (v : Json) : Arg.Printed (.literal v) v.compact.toList
  | path (p : String) : Arg.Printed (.path p) p.toList
  | call {name : String} {args : List Arg} {before inner : List Char} :
      Blank before → ArgsPrinted args inner →
      Arg.Printed (.call name args) (name.toList ++ (before ++ '(' :: (inner ++ [')'])))

inductive ArgsPrinted : List Arg → List Char → Prop
  | nil {blanks : List Char} : Blank blanks → ArgsPrinted [] blanks
  | single {arg : Arg} {before text after : List Char} :
      Blank before → Arg.Printed arg text → Blank after →
      ArgsPrinted [arg] (before ++ (text ++ after))
  | cons {arg next : Arg} {args : List Arg} {before text after more : List Char} :
      Blank before → Arg.Printed arg text → Blank after → ArgsPrinted (next :: args) more →
      ArgsPrinted (arg :: next :: args) (before ++ (text ++ (after ++ ',' :: more)))
end

/-- The texts of a call as a whole expression. -/
def Call.Printed (call : Call) (text : String) : Prop :=
  ∃ before body after, Blank before ∧ (Arg.call call.name call.args).Printed body ∧ Blank after ∧
    text.toList = before ++ (body ++ after)

mutual
/-- Whether an argument has a text: a literal is a truth value, null or a number that reads back,
and names and paths are well-formed. -/
def Arg.Printable : Arg → Prop
  | .text _ => True
  | .literal .null | .literal (.bool _) => True
  | .literal (.num n) => Number.read? n.text.toList = some n
  | .literal _ => False
  | .path p => IsPathText p.toList
  | .call name args => IsName name ∧ ArgsPrintable args

def ArgsPrintable : List Arg → Prop
  | [] => True
  | arg :: args => arg.Printable ∧ ArgsPrintable args
end

mutual
/-- The text of an argument without any white space. -/
def Arg.print : Arg → List Char
  | .text raw => '\'' :: (guarded ['\'', '\\'] raw.toList ++ ['\''])
  | .literal v => v.compact.toList
  | .path p => p.toList
  | .call name args => name.toList ++ '(' :: (printArgs args ++ [')'])

def printArgs : List Arg → List Char
  | [] => []
  | [arg] => arg.print
  | arg :: args => arg.print ++ ',' :: printArgs args
end

def Call.print (call : Call) : String := String.ofList (Arg.call call.name call.args).print

mutual
theorem Arg.printed_print : (arg : Arg) → arg.Printed arg.print
  | .text raw => .text raw
  | .literal v => .literal v
  | .path p => .path p
  | .call _ args => .call blank_nil (printed_printArgs args)

theorem printed_printArgs : (args : List Arg) → ArgsPrinted args (printArgs args)
  | [] => .nil blank_nil
  | [arg] => by
    have h := ArgsPrinted.single blank_nil arg.printed_print blank_nil
    rwa [List.nil_append, List.append_nil] at h
  | arg :: next :: args =>
    .cons blank_nil arg.printed_print blank_nil (printed_printArgs (next :: args))
end

theorem Call.printed_print (call : Call) : call.Printed call.print := by
  refine ⟨[], _, [], blank_nil, Arg.printed_print _, blank_nil, ?_⟩
  rw [Call.print, String.toList_ofList, List.append_nil]
  rfl

/-! ## Reading what was printed -/

/-- The code points of white space. -/
def blankCodes : List Nat :=
  [0x9, 0xA, 0xB, 0xC, 0xD, 0x20, 0x85, 0xA0, 0x1680, 0x2000, 0x2001, 0x2002, 0x2003, 0x2004,
    0x2005, 0x2006, 0x2007, 0x2008, 0x2009, 0x200A, 0x2028, 0x2029, 0x202F, 0x205F, 0x3000]

theorem toNat_mem_blankCodes (h : Text.isBlank c = true) : c.toNat ∈ blankCodes := by
  simp only [Text.isBlank, Bool.or_eq_true, Bool.and_eq_true, decide_eq_true_eq, beq_iff_eq] at h
  simp only [blankCodes, List.mem_cons, List.not_mem_nil, or_false]
  omega

theorem isNameChar_of_isBlank (h : Text.isBlank c = true) : isNameChar c = false := by
  have hcode := toNat_mem_blankCodes h
  have hnone : ∀ code ∈ blankCodes,
      Text.inRanges code Text.alphanumericRanges 0 Text.alphanumericRanges.size = false := by
    decide +kernel
  have hdot : c ≠ '.' ∧ c ≠ '_' := by
    constructor <;> rintro rfl <;> cases h
  simp only [isNameChar, Text.isAlphanumeric, hnone _ hcode, Bool.false_or, Bool.or_eq_false_iff,
    beq_eq_false_iff_ne]
  exact hdot

theorem not_mem_delimiters_of_written (h : Number.Written c) : c ∉ delimiters := by
  rcases h with h | h
  · intro hc
    simp only [delimiters, List.mem_cons, List.not_mem_nil, or_false] at hc
    rcases hc with rfl | rfl | rfl | rfl | rfl | rfl | rfl <;> cases h
  · simp only [List.mem_cons, List.not_mem_nil, or_false] at h
    rcases h with rfl | rfl | rfl | rfl | rfl <;> decide

theorem isBlank_of_written (h : Number.Written c) : Text.isBlank c = false := by
  rcases h with h | h
  · exact Text.isBlank_of_isDigit h
  · simp only [List.mem_cons, List.not_mem_nil, or_false] at h
    rcases h with rfl | rfl | rfl | rfl | rfl <;> decide

theorem spelled_number {n : Number} (h : Number.read? n.text.toList = some n) :
    (Arg.literal (.num n)).Spelled n.text.toList := by
  obtain ⟨hwritten, c, rest, htext, hc⟩ := Number.written_of_read? h
  rw [htext] at h hwritten ⊢
  refine spelled_of_balanced (balanced_of_plain fun d hd =>
      not_mem_delimiters_of_written (hwritten d hd))
    (isBlank_of_written (hwritten c List.mem_cons_self))
    (fun d hd => isBlank_of_written (hwritten d (List.mem_of_getLast? hd))) fun n more hmore => ?_
  rw [readArg_number hc, hmore, h]

theorem spelled_word (hword : wordLiteral? text = some v)
    (htext : text = ['t', 'r', 'u', 'e'] ∨ text = ['f', 'a', 'l', 's', 'e'] ∨
      text = ['n', 'u', 'l', 'l']) : (Arg.literal v).Spelled text := by
  have hall : text.all (fun c => c ∉ delimiters ∧ Text.isBlank c = false) = true := by
    rcases htext with rfl | rfl | rfl <;> decide
  have hplain : ∀ c ∈ text, c ∉ delimiters ∧ Text.isBlank c = false := by
    simpa using List.all_eq_true.mp hall
  have halpha : ∃ c rest, text = c :: rest ∧ c.isAlpha = true := by
    rcases htext with rfl | rfl | rfl <;> exact ⟨_, _, rfl, rfl⟩
  obtain ⟨c, rest, rfl, hc⟩ := halpha
  refine spelled_of_balanced (balanced_of_plain fun d hd => (hplain d hd).1)
    (hplain c List.mem_cons_self).2 (fun d hd => (hplain d (List.mem_of_getLast? hd)).2)
    fun n more hmore => ?_
  rw [readArg_alpha hc, hmore, hword]

theorem spelled_literal (h : (Arg.literal v).Printable) :
    (Arg.literal v).Spelled v.compact.toList := by
  cases v with
  | null => exact spelled_word rfl (.inr (.inr rfl))
  | bool b => cases b <;> exact spelled_word rfl (by decide)
  | num n => exact spelled_number h
  | str s => exact h.elim
  | arr items => exact h.elim
  | obj fields => exact h.elim

theorem spelled_text (raw : String) :
    (Arg.text raw).Spelled ('\'' :: (guarded ['\'', '\\'] raw.toList ++ ['\''])) := by
  have hread : ∀ rest, readQuoted (guarded ['\'', '\\'] raw.toList ++ ['\''] ++ rest) =
      .ok (raw.toList, rest) := by
    intro rest
    rw [List.append_assoc, List.singleton_append,
      readQuoted_guarded_cons (by decide) (readQuoted_quote rest), guarded_none, List.append_nil]
  simpa using spelled_quoted hread

theorem spelled_path {p : String} (h : IsPathText p.toList) : (Arg.path p).Spelled p.toList := by
  obtain ⟨rest, htext⟩ := List.head?_eq_some_iff.mp h.root
  have hbalanced := h.balanced
  have hlast := h.last
  rw [htext] at hbalanced hlast ⊢
  refine spelled_of_balanced hbalanced (by decide) hlast fun n more hmore => ?_
  rw [readArg_path, hmore, ← htext, String.ofList_toList]

theorem head_of_blanks (hblanks : Blank blanks) (rest : List Char) :
    (blanks ++ '(' :: rest).head? = some c → isNameChar c = false := by
  intro hc
  cases blanks with
  | nil =>
    cases hc
    exact nameChars.1
  | cons b blanks =>
    cases hc
    exact isNameChar_of_isBlank (hblanks c List.mem_cons_self)

theorem spelled_of_inner {name : String} (hname : IsName name) (hblanks : Blank blanks)
    (hinner : Enclosed (inner ++ [')']) args) :
    Call.Spelled (name.toList ++ (blanks ++ '(' :: (inner ++ [')']))) ⟨name, args⟩ := by
  have h := Call.spelled_of_enclosed hname.1 hname.2 hblanks
    (fun rest _ => head_of_blanks hblanks rest) hinner
  rwa [String.ofList_toList] at h

theorem Enclosed.argsSpelled (h : Enclosed text (arg :: args)) :
    ArgsSpelled text (arg :: args) := by
  cases h with
  | some h => exact h

mutual
theorem Arg.Printed.spelled : {arg : Arg} → {text : List Char} → arg.Printable →
    arg.Printed text → arg.Spelled text
  | .text raw, _, _, .text _ => spelled_text raw
  | .literal _, _, h, .literal _ => spelled_literal h
  | .path _, _, h, .path _ => spelled_path h
  | .call _ _, _, ⟨hname, hargs⟩, .call hblanks hinner => by
    have h := spelled_of_inner hname hblanks (hinner.enclosed hargs)
    obtain ⟨more, hmore⟩ := hname.2
    rw [← hmore] at h ⊢
    exact spelled_call rfl (by decide) wordLiteral?_readToken h

theorem ArgsPrinted.enclosed : {args : List Arg} → {inner : List Char} → ArgsPrintable args →
    ArgsPrinted args inner → Enclosed (inner ++ [')']) args
  | [], _, _, .nil hblanks => .none hblanks
  | [_], _, ⟨harg, _⟩, .single hbefore htext hafter => by
    have h := (argsSpelled_last (htext.spelled harg) hafter).append_left hbefore
    simpa using Enclosed.some h
  | _ :: _ :: _, _, ⟨harg, hargs⟩, .cons hbefore htext hafter hmore => by
    have hmore := (hmore.enclosed hargs).argsSpelled
    have h := (argsSpelled_cons (htext.spelled harg) hafter hmore).append_left hbefore
    simpa using Enclosed.some h
end

theorem call_spelled_of_printed (h : (Arg.call call.name call.args).Printable)
    (hprinted : (Arg.call call.name call.args).Printed text) : call.Spelled text := by
  cases hprinted with
  | call hblanks hinner => exact spelled_of_inner h.1 hblanks (hinner.enclosed h.2)

/-! ## Whole expressions -/

theorem Call.Spelled.head (h : call.Spelled body) : ∃ more, body = 'S' :: more := by
  have hread := h [] body.length le_rfl
  rw [List.append_nil] at hread
  cases body with
  | nil => cases hread
  | cons c more => exact ⟨more, by rw [readCall_ok_head hread]⟩

theorem parse_of_body {text : String} (hbody : call.Spelled body) (hblanks : Blank blanks)
    (htext : text.toList = blanks ++ (body ++ rest)) :
    parse text = if (skipBlanks rest).isEmpty then .ok call
      else .error (.intrinsicFailure text
        (.malformed .trailing (text.toList.length - (skipBlanks rest).length))) := by
  have hskip : skipBlanks text.toList = body ++ rest := by
    obtain ⟨more, rfl⟩ := hbody.head
    rw [htext, skipBlanks_append hblanks, List.cons_append, skipBlanks_cons (by decide)]
  have hlength : text.toList.length = blanks.length + (body.length + rest.length) := by
    rw [htext, List.length_append, List.length_append]
  have hread := hbody rest (2 * text.toList.length + 4) (by omega)
  rw [parse]
  simp only [hskip, hread]

theorem body_of_parse {text : String} (h : parse text = .ok call) : ∃ before body after,
    Blank before ∧ call.Spelled body ∧ Blank after ∧ text.toList = before ++ (body ++ after) := by
  obtain ⟨n, after, hread, hafter⟩ := readCall_of_parse h
  obtain ⟨body, hbody, hspelled⟩ := (readers_local (n + 1)).call hread
  obtain ⟨before, hbefore, htext⟩ := exists_blanks text.toList
  exact ⟨before, body, after, hbefore, hspelled, hafter, by rw [htext, hbody]⟩

/-- A call is read back from every text that writes it, however much white space there is between
its tokens, and every call has such a text. Nothing but white space may follow its closing
parenthesis. -/
theorem parse_printed :
    (∀ call : Call, (Arg.call call.name call.args).Printable →
      call.Printed call.print ∧ ∀ text, call.Printed text → parse text = .ok call) ∧
    (∀ text call more, parse text = .ok call → ¬ Blank more.toList →
      parse (text ++ more) = .error (.intrinsicFailure (text ++ more) (.malformed .trailing
        (text.toList.length + (more.toList.takeWhile Text.isBlank).length)))) := by
  constructor
  · intro call h
    refine ⟨call.printed_print, ?_⟩
    rintro text ⟨before, body, after, hbefore, hbody, hafter, htext⟩
    have hnil : skipBlanks after = [] := List.dropWhile_eq_nil_iff.mpr hafter
    rw [parse_of_body (call_spelled_of_printed h hbody) hbefore htext, hnil]
    rfl
  · intro text call more h hmore
    obtain ⟨before, body, after, hbefore, hbody, hafter, htext⟩ := body_of_parse h
    have htexts : (text ++ more).toList = before ++ (body ++ (after ++ more.toList)) := by
      rw [String.toList_append, htext, List.append_assoc, List.append_assoc]
    have hleft : (skipBlanks more.toList).isEmpty = false := by
      rw [List.isEmpty_eq_false_iff]
      exact fun hnil => hmore (List.dropWhile_eq_nil_iff.mp hnil)
    have hsplit : more.toList.length =
        (more.toList.takeWhile Text.isBlank).length + (skipBlanks more.toList).length := by
      rw [← List.length_append, skipBlanks, List.takeWhile_append_dropWhile]
    have hposition : (text ++ more).toList.length - (skipBlanks more.toList).length =
        text.toList.length + (more.toList.takeWhile Text.isBlank).length := by
      rw [String.toList_append, List.length_append]
      omega
    rw [parse_of_body hbody hbefore htexts, skipBlanks_append hafter, hleft, hposition]
    rfl

/-- A quote and a comma in a text, commas and a parenthesis in a path, a call between the arguments,
and white space around them. -/
theorem parse_printed_nested :
    let call : Call := ⟨"States.Format", [.text "it's, \x7b\x7d", .call "States.Array_1" [],
      .path "$['x, y)'][(b,1)]", .literal (.num (.int (-7)))]⟩
    let text := " States.Format\t('it\\'s, \x7b\x7d' ,States.Array_1( ),$['x, y)'][(b,1)]\n, -7)\n"
    (Arg.call call.name call.args).Printable ∧ call.Printed text ∧ parse text = .ok call ∧
      parse (text ++ " x") = .error (.intrinsicFailure (text ++ " x") (.malformed .trailing
        (text.toList.length + 1))) := by
  intro call text
  have hnames : "States.Format".toList.all isNameChar = true ∧
      "States.Array_1".toList.all isNameChar = true := by decide +kernel
  have hformat : IsName "States.Format" :=
    ⟨List.all_eq_true.mp hnames.1, "Format".toList, rfl⟩
  have harray : IsName "States.Array_1" :=
    ⟨List.all_eq_true.mp hnames.2, "Array_1".toList, rfl⟩
  have hindex : Balanced 0 "[(b,1)]".toList :=
    .opening (.inl rfl) (.opening (.inr rfl) (.plain (by decide) (.comma (.plain (by decide)
      (.closing (.inr rfl) (.closing (.inl rfl) .nil))))))
  have hpath : IsPathText "$['x, y)'][(b,1)]".toList :=
    ⟨rfl, by rintro c ⟨⟩; rfl, .plain (by decide) (.opening (.inl rfl)
      (@Balanced.quoted 1 '\'' "x, y)".toList _ (.inl rfl) (by decide) (.closing (.inl rfl)
        hindex)))⟩
  have hprintable : (Arg.call call.name call.args).Printable :=
    ⟨hformat, trivial, ⟨harray, trivial⟩, hpath, rfl, trivial⟩
  have hspace : Blank [' '] := List.forall_mem_singleton.mpr rfl
  have htab : Blank ['\t'] := List.forall_mem_singleton.mpr rfl
  have hline : Blank ['\n'] := List.forall_mem_singleton.mpr rfl
  have hprinted : call.Printed text :=
    ⟨[' '], _, ['\n'], hspace, .call htab (.cons blank_nil (.text _) hspace
      (.cons blank_nil (.call blank_nil (.nil hspace)) blank_nil
        (.cons blank_nil (.path _) hline (.single hspace (.literal _) blank_nil)))), hline,
      by decide +kernel⟩
  have hread := (parse_printed.1 call hprintable).2 text hprinted
  have hmore : ¬ Blank " x".toList := fun h => absurd (h 'x' (by decide)) (by decide)
  exact ⟨hprintable, hprinted, hread, parse_printed.2 text call " x" hread hmore⟩

end Intrinsic
end StateCheck
