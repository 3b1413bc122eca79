import DevScan.Json.Errors
import Mathlib.Data.List.TakeWhile

/-!
# `Json/Buffer.lean` — documents that are part of a buffer

`ConfigureClient::recvCb` hands the reader a part of its receive buffer, and what stands behind it
there is left over from other telegrams. Two loops look at that character. In a comment it makes no
difference: there is nothing left to read either way (`readToken_behind`). Behind an opening bracket
it does: a `]` there makes the reader take the bracket for an empty array.

So the answer depends on the document alone, unless a bracket is the last of it, white space apart
(`parse_behind`). Then the bracket is an array that is not closed, or the empty one, and nothing
else: a document that is read as an object with one character behind it is read as the same object
with any other (`reader_before`).
-/

set_option autoImplicit false

namespace DevScan.Json.Reader

/-! ## Tokens -/

theorem findCommentEnd_behind (behind behind' : Char) (current : Location) :
    findCommentEnd behind current = findCommentEnd behind' current := by
  induction current with
  | nil => rfl
  | cons c rest ih =>
    cases rest with
    | nil => simp [findCommentEnd]
    | cons c' rest =>
      have hunfold : ∀ behind, findCommentEnd behind (c :: c' :: rest) =
          if c = '*' ∧ c' = '/' then c' :: rest else findCommentEnd behind (c' :: rest) :=
        fun _ => rfl
      rw [hunfold, hunfold, ih]

theorem readToken_behind (behind behind' : Char) : readToken behind = readToken behind' := by
  have hcomment : readComment behind = readComment behind' := by
    funext current
    rw [readComment, readComment, readCStyleComment, readCStyleComment,
      findCommentEnd_behind behind behind']
  funext current
  rw [readToken, readToken, scan, scan, hcomment]

theorem skipComments_behind (behind behind' : Char) :
    skipComments behind = skipComments behind' := by
  funext current
  refine skipComments_induction (P := fun current token => token = skipComments behind' current) behind
    (fun current h => ?_) (fun current token h htoken => ?_) current
  · rw [readToken_behind behind behind'] at h ⊢
    rw [skipComments_of_ne h]
  · rw [readToken_behind behind behind'] at h htoken
    rw [htoken, skipComments_of_comment h]

theorem skipCommentTokens_behind (features : Features) (behind behind' : Char) :
    skipCommentTokens features behind = skipCommentTokens features behind' := by
  funext current
  rw [skipCommentTokens, skipCommentTokens, skipComments_behind behind behind',
    readToken_behind behind behind']

theorem recoverLoop_behind (behind behind' : Char) :
    Reading.recoverLoop behind = Reading.recoverLoop behind' := by
  funext type rounds current
  induction rounds generalizing current with
  | zero => rfl
  | succ rounds ih => rw [Reading.recoverLoop, Reading.recoverLoop, readToken_behind behind behind', ih]

section Document

variable {setup : Setup} {document : Location} {behind : Char}

/-- The same reader with another character behind the document. -/
def Setup.before (setup : Setup) (behind : Char) : Setup := { setup with behind := behind }

/-- `parse` as a function of the text, and of the character behind it. -/
def Setup.bufferReader (setup : Setup) : Char → Json.Reader := fun behind =>
  (setup.before behind).reader

theorem recoverFromError_before (s : Reading) (type : TokenType) :
    s.recoverFromError (setup.before behind) type = s.recoverFromError setup type :=
  congrArg s.moveTo (congrFun (congrFun (congrFun (recoverLoop_behind _ _) type) _) _)

theorem addErrorAndRecover_before (s : Reading) (info : ErrorInfo) (type : TokenType) :
    s.addErrorAndRecover (setup.before behind) info type =
      s.addErrorAndRecover setup info type := recoverFromError_before _ type

/-! ## Values -/

/-- No bracket is the last of the document, white space apart. -/
def NoOpenEnd (document : Location) : Prop :=
  (document.reverse.dropWhile isSpace).head? ≠ some '['

instance (document : Location) : Decidable (NoOpenEnd document) :=
  inferInstanceAs (Decidable (_ ≠ _))

theorem not_open_of_noOpenEnd (h : NoOpenEnd document) {spaces : Location}
    (hspaces : ∀ c ∈ spaces, isSpace c) : ¬ '[' :: spaces <:+ document := by
  rintro ⟨before, rfl⟩
  refine h ?_
  rw [List.reverse_append, List.reverse_cons, List.append_assoc,
    List.dropWhile_append_of_pos fun c hc => hspaces c (List.mem_reverse.mp hc)]
  rfl

/-- Where a value is taken for read, it is an empty array and nothing is left. -/
def Loose (o : Outcome) : Prop :=
  o.successful = true → o.value = .arrayValue [] ∧ o.reading.current = []

/-- The two answers are the same; or, if a bracket is the last of the document, both are loose. -/
inductive Alike (document : Location) : Option Outcome → Option Outcome → Prop where
  | same (o : Option Outcome) : Alike document o o
  | loose {o o' : Option Outcome} : ¬NoOpenEnd document → (∀ x ∈ o, Loose x) → (∀ x ∈ o', Loose x) →
      Alike document o o'

/-- A member whose value is loose is not taken for read: there is no comma behind it. -/
theorem loose_afterMember {members : List (StdString × Value)} {outcome : Outcome}
    {again : Reading → Option Outcome} (h : Loose outcome) :
    ∀ x ∈ afterMember setup members outcome again, Loose x := by
  intro x hx
  rw [afterMember] at hx
  dsimp only at hx
  split at hx
  · obtain rfl := Option.some.inj hx
    exact fun hok => absurd hok Bool.false_ne_true
  · rename_i hok
    obtain ⟨-, hend⟩ := h (Bool.eq_true_of_not_eq_false hok)
    rw [hend, readToken_of_end rfl, if_pos (by decide)] at hx
    obtain rfl := Option.some.inj hx
    exact fun hok => absurd hok Bool.false_ne_true

theorem loose_afterElement {elems : List Value} {outcome : Outcome}
    {again : Reading → Option Outcome} (h : Loose outcome) :
    ∀ x ∈ afterElement setup elems outcome again, Loose x := by
  intro x hx
  rw [afterElement] at hx
  dsimp only at hx
  split at hx
  · obtain rfl := Option.some.inj hx
    exact fun hok => absurd hok Bool.false_ne_true
  · rename_i hok
    obtain ⟨-, hend⟩ := h (Bool.eq_true_of_not_eq_false hok)
    rw [hend, skipComments_of_end rfl, if_neg (by decide), if_neg (by decide)] at hx
    obtain rfl := Option.some.inj hx
    exact fun hok => absurd hok Bool.false_ne_true

theorem alike_afterMember (members : List (StdString × Value)) (outcome : Outcome)
    {again again' : Reading → Option Outcome}
    (h : ∀ s, s.current <:+ outcome.reading.current → Alike document (again s) (again' s)) :
    Alike document (afterMember (setup.before behind) members outcome again)
      (afterMember setup members outcome again') := by
  have htokens : readToken (setup.before behind).behind = readToken setup.behind :=
    readToken_behind _ _
  have hcomments : skipComments (setup.before behind).behind = skipComments setup.behind :=
    skipComments_behind _ _
  have hagain := h (outcome.reading.moveTo (skipComments setup.behind outcome.reading.current).stop)
    (TokenOf.skipComments _ _).stop_suffix
  simp only [afterMember, htokens, hcomments, recoverFromError_before, addErrorAndRecover_before]
  split
  · exact .same _
  · split
    · exact .same _
    · split
      · exact .same _
      · exact hagain

theorem alike_afterElement (elems : List Value) (outcome : Outcome)
    {again again' : Reading → Option Outcome}
    (h : ∀ s, s.current <:+ outcome.reading.current → Alike document (again s) (again' s)) :
    Alike document (afterElement (setup.before behind) elems outcome again)
      (afterElement setup elems outcome again') := by
  have hcomments : skipComments (setup.before behind).behind = skipComments setup.behind :=
    skipComments_behind _ _
  have hagain := h (outcome.reading.moveTo (skipComments setup.behind outcome.reading.current).stop)
    (TokenOf.skipComments _ _).stop_suffix
  simp only [afterElement, hcomments, recoverFromError_before, addErrorAndRecover_before]
  split
  · exact .same _
  · split
    · exact .same _
    · split
      · exact hagain
      · exact .same _

/-- The four functions answer alike on what is left of the document. -/
structure AllAlike (setup : Setup) (document : Location) (behind : Char) (fuel : Nat) : Prop where
  readValue : ∀ value s, s.current <:+ document →
    Alike document (readValue (setup.before behind) fuel value s) (readValue setup fuel value s)
  readObject : ∀ name members s, s.current <:+ document →
    Alike document (readObject (setup.before behind) fuel name members s)
      (readObject setup fuel name members s)
  readArray : ∀ s, '[' :: s.current <:+ document →
    Alike document (readArray (setup.before behind) fuel s) (readArray setup fuel s)
  readElements : ∀ elems s, s.current <:+ document →
    Alike document (readElements (setup.before behind) fuel elems s)
      (readElements setup fuel elems s)

variable {s : Reading} {value : Value} {fuel : Nat}

theorem alike_readValue (ih : AllAlike setup document behind fuel)
    (hsuffix : s.current <:+ document) :
    Alike document (readValue (setup.before behind) (fuel + 1) value s)
      (readValue setup (fuel + 1) value s) := by
  have htoken := TokenOf.skipCommentTokens setup.features setup.behind s.current
  have hsame : skipCommentTokens (setup.before behind).features (setup.before behind).behind =
      skipCommentTokens setup.features setup.behind := skipCommentTokens_behind _ _ _
  rw [readValue, readValue, hsame]
  generalize skipCommentTokens setup.features setup.behind s.current = token at htoken
  have hstop := htoken.stop_suffix.trans hsuffix
  cases htype : token.type with
  | objectBegin => exact ih.readObject _ _ _ hstop
  | arrayBegin =>
    refine ih.readArray _ ?_
    rw [Reading.moveTo, ← htoken.arrayBegin htype]
    exact htoken.start_suffix.trans hsuffix
  | _ => exact .same _

theorem alike_readObject (ih : AllAlike setup document behind fuel) {name : StdString}
    {members : List (StdString × Value)} (hsuffix : s.current <:+ document) :
    Alike document (readObject (setup.before behind) (fuel + 1) name members s)
      (readObject setup (fuel + 1) name members s) := by
  have htokens : readToken (setup.before behind).behind = readToken setup.behind :=
    readToken_behind _ _
  have hcomments : skipComments (setup.before behind).behind = skipComments setup.behind :=
    skipComments_behind _ _
  have hname := TokenOf.skipComments setup.behind s.current
  rw [readObject, readObject, hcomments, htokens]
  generalize skipComments setup.behind s.current = tokenName at hname
  have hnames : nameOf (setup.before behind) tokenName = nameOf setup tokenName := rfl
  simp only [hnames, addErrorAndRecover_before]
  split
  · exact .same _
  · split
    · exact .same _
    · exact .same _
    · rename_i name' _
      split
      · exact .same _
      · have hcolon := (stop_suffix setup.behind tokenName.stop).trans
          (hname.stop_suffix.trans hsuffix)
        have hvalue := ih.readValue (memberAt members (cString name'))
          ((s.moveTo tokenName.stop).moveTo
            (readToken setup.behind (s.moveTo tokenName.stop).current).stop) hcolon
        generalize readValue (setup.before behind) fuel (memberAt members (cString name'))
          ((s.moveTo tokenName.stop).moveTo
            (readToken setup.behind (s.moveTo tokenName.stop).current).stop) = before at hvalue ⊢
        generalize hread : readValue setup fuel (memberAt members (cString name'))
          ((s.moveTo tokenName.stop).moveTo
            (readToken setup.behind (s.moveTo tokenName.stop).current).stop) = after at hvalue ⊢
        cases hvalue with
        | same =>
          -- both go on behind the same value
          cases before with
          | none => exact .same _
          | some outcome =>
            have hout := ((allSound setup fuel).readValue hread).suffix.trans hcolon
            exact alike_afterMember _ outcome fun s hs => ih.readObject _ _ s (hs.trans hout)
        | loose hopen hbefore hafter =>
          refine .loose hopen ?_ ?_
          · cases before with
            | none => exact fun x hx => absurd hx (by simp)
            | some outcome => exact loose_afterMember (hbefore outcome rfl)
          · cases after with
            | none => exact fun x hx => absurd hx (by simp)
            | some outcome => exact loose_afterMember (hafter outcome rfl)

/-- At the end of the document there are no elements. -/
theorem loose_readElements (hend : s.current = []) (elems : List Value) :
    ∀ x ∈ readElements setup fuel elems s, Loose x := by
  intro x hx
  cases fuel with
  | zero => cases hx
  | succ fuel =>
    rw [readElements] at hx
    cases fuel with
    | zero => cases hx
    | succ fuel =>
      rw [readValue, hend, skipCommentTokens_of_end rfl] at hx
      exact loose_afterElement (fun hok => absurd hok Bool.false_ne_true) x hx

theorem loose_readArray (hend : skipSpaces s.current = []) :
    ∀ x ∈ readArray setup (fuel + 1) s, Loose x := by
  intro x hx
  rw [readArray, hend] at hx
  split at hx
  · obtain rfl := Option.some.inj hx
    exact fun _ => ⟨rfl, congrArg Token.stop (readToken_of_end rfl)⟩
  · exact loose_readElements rfl [] x hx

theorem alike_readArray (ih : AllAlike setup document behind fuel)
    (hsuffix : '[' :: s.current <:+ document) :
    Alike document (readArray (setup.before behind) (fuel + 1) s) (readArray setup (fuel + 1) s) := by
  have htokens : readToken (setup.before behind).behind = readToken setup.behind :=
    readToken_behind _ _
  cases hspaces : skipSpaces s.current with
  | nil =>
    -- then there is nothing but white space behind the bracket
    have hopen : ¬NoOpenEnd document := fun hopen =>
      not_open_of_noOpenEnd hopen (List.dropWhile_eq_nil_iff.mp hspaces) hsuffix
    exact .loose hopen (loose_readArray hspaces) (loose_readArray hspaces)
  | cons c rest =>
    have hrest : c :: rest <:+ document :=
      hspaces ▸ (skipSpaces_suffix s.current).trans ((List.suffix_cons _ _).trans hsuffix)
    have hpeek : peek (setup.before behind).behind (c :: rest) = peek setup.behind (c :: rest) := rfl
    rw [readArray, readArray, htokens, hspaces, hpeek]
    split
    · exact .same _
    · -- what is looked at behind the bracket is part of the document
      exact ih.readElements [] (s.moveTo (c :: rest)) hrest

theorem alike_readElements (ih : AllAlike setup document behind fuel) {elems : List Value}
    (hsuffix : s.current <:+ document) :
    Alike document (readElements (setup.before behind) (fuel + 1) elems s)
      (readElements setup (fuel + 1) elems s) := by
  have hvalue := ih.readValue .nullValue s hsuffix
  rw [readElements, readElements]
  generalize readValue (setup.before behind) fuel .nullValue s = before at hvalue ⊢
  generalize hread : readValue setup fuel .nullValue s = after at hvalue ⊢
  cases hvalue with
  | same =>
    cases before with
    | none => exact .same _
    | some outcome =>
      have hout := ((allSound setup fuel).readValue hread).suffix.trans hsuffix
      exact alike_afterElement _ outcome fun s hs => ih.readElements _ s (hs.trans hout)
  | loose hopen hbefore hafter =>
    refine .loose hopen ?_ ?_
    · cases before with
      | none => exact fun x hx => absurd hx (by simp)
      | some outcome => exact loose_afterElement (hbefore outcome rfl)
    · cases after with
      | none => exact fun x hx => absurd hx (by simp)
      | some outcome => exact loose_afterElement (hafter outcome rfl)

theorem allAlike (fuel : Nat) : AllAlike setup document behind fuel := by
  induction fuel with
  | zero =>
    exact ⟨fun _ _ _ => .same _, fun _ _ _ _ => .same _, fun _ _ => .same _, fun _ _ _ => .same _⟩
  | succ fuel ih =>
    exact ⟨fun _ _ hs => alike_readValue ih hs, fun _ _ _ hs => alike_readObject ih hs,
      fun _ hs => alike_readArray ih hs, fun _ _ hs => alike_readElements ih hs⟩

/-- The document is read alike, from its first byte on. -/
theorem alike_document (setup : Setup) (behind : Char) (document : StdString) (fuel : Nat) :
    Alike document (readValue (setup.before behind) fuel .nullValue ⟨document, []⟩)
      (readValue setup fuel .nullValue ⟨document, []⟩) :=
  (allAlike fuel).readValue .nullValue ⟨document, []⟩ (List.suffix_refl _)

theorem parse_before (h : readValue (setup.before behind) (3 * document.length + 3) .nullValue
    ⟨document, []⟩ = readValue setup (3 * document.length + 3) .nullValue ⟨document, []⟩) :
    parse (setup.before behind) document = parse setup document := by
  have hsame : skipCommentTokens (setup.before behind).features (setup.before behind).behind =
      skipCommentTokens setup.features setup.behind := skipCommentTokens_behind _ _ _
  simp only [parse, h, hsame]
  rfl

/-- **What stands behind the document has no part in the answer**, unless a bracket is left open at
its end. -/
theorem parse_behind (setup : Setup) (behind : Char) {document : StdString}
    (hopen : NoOpenEnd document) :
    parse { setup with behind := behind } document = parse setup document := by
  have halike := alike_document setup behind document (3 * document.length + 3)
  generalize hbefore : readValue (setup.before behind) (3 * document.length + 3) .nullValue
    ⟨document, []⟩ = before at halike
  generalize hafter : readValue setup (3 * document.length + 3) .nullValue ⟨document, []⟩ = after
    at halike
  cases halike with
  | same => exact parse_before (hbefore.trans hafter.symm)
  | loose hnot => exact absurd hopen hnot

theorem parse_behind_array :
    parse { sscanf := fun _ => none, behind := ']' } "[1, \"[\"]".toList =
      parse { sscanf := fun _ => none } "[1, \"[\"]".toList :=
  parse_behind { sscanf := fun _ => none } ']' (by decide +kernel)

/-- An open bracket, with what is left of another array behind it. -/
example :
    (parse { sscanf := fun _ => none, behind := ']' } "[".toList).map Outcome.successful = some true ∧
      (parse { sscanf := fun _ => none } "[".toList).map Outcome.successful = some false := by
  decide +kernel

end Document
end DevScan.Json.Reader
