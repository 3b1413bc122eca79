import DevScan.Json.Reader

/-!
# `Json/Errors.lean` — the errors of a reader, and that it comes to an end

Whatever `readValue` is given, it moves forward, and where it does not succeed it has recorded
exactly one error (`sound`): what the levels above it do to recover skips text and records nothing.
So `parse` reports at most one error of the text, and reports it where it answers `false`. What the
error points to lies in the document.

Since every round takes a token, the fuel of `parse` is never used up (`parse_isSome`).
-/

set_option autoImplicit false

namespace DevScan.Json.Reader

/-! ## Where a string that is refused is refused -/

/-- What is left after an escape sequence, or where it is refused, is in what there was. -/
def Stays (current : StdString) : Except BadString (Nat × StdString) → Prop
  | .ok (_, rest) => rest <:+ current
  | .error bad => bad.extra <:+ current

theorem Stays.mono {current current' : StdString} {r : Except BadString (Nat × StdString)}
    (h : Stays current' r) (hsuffix : current' <:+ current) : Stays current r := by
  cases r with
  | ok decoded => exact List.IsSuffix.trans h hsuffix
  | error bad => exact List.IsSuffix.trans h hsuffix

theorem stays_hexLoop (digits unicode : Nat) (current : StdString) :
    Stays current (hexLoop digits unicode current) := by
  induction digits generalizing unicode current with
  | zero => exact List.suffix_refl current
  | succ digits ih =>
    have hnext := getNextChar_suffix current
    rw [hexLoop]
    split
    · exact (ih _ _).mono hnext
    · exact hnext

theorem stays_decodeUnicodeEscapeSequence (current : StdString) :
    Stays current (decodeUnicodeEscapeSequence current) := by
  rw [decodeUnicodeEscapeSequence]
  split
  · exact List.suffix_refl current
  · exact stays_hexLoop 4 0 current

theorem stays_decodeSurrogatePair (unicode : Nat) (current : StdString) :
    Stays current (decodeSurrogatePair unicode current) := by
  have hbackslash := getNextChar_suffix current
  have hu := (getNextChar_suffix (getNextChar current).2).trans hbackslash
  rw [decodeSurrogatePair]
  split
  · exact List.suffix_refl current
  · dsimp only
    split
    · split
      · have h := stays_decodeUnicodeEscapeSequence (getNextChar (getNextChar current).2).2
        cases hpair : decodeUnicodeEscapeSequence (getNextChar (getNextChar current).2).2 with
        | ok decoded =>
          rw [hpair] at h
          exact List.IsSuffix.trans h hu
        | error bad =>
          rw [hpair] at h
          exact List.IsSuffix.trans h hu
      · exact hu
    · exact hbackslash

theorem stays_decodeUnicodeCodePoint (current : StdString) :
    Stays current (decodeUnicodeCodePoint current) := by
  have h := stays_decodeUnicodeEscapeSequence current
  rw [decodeUnicodeCodePoint]
  cases hfirst : decodeUnicodeEscapeSequence current with
  | error bad =>
    rw [hfirst] at h
    exact h
  | ok decoded =>
    rw [hfirst] at h
    change Stays current (if _ then decodeSurrogatePair _ _ else _)
    split
    · exact (stays_decodeSurrogatePair _ _).mono h
    · exact h

theorem extra_suffix_of_decodeStringLoop {rounds : Nat} {current decoded : StdString}
    {bad : BadString} (h : decodeStringLoop rounds current decoded = .error bad) :
    bad.extra <:+ current := by
  induction rounds generalizing current decoded with
  | zero => exact absurd h (by simp [decodeStringLoop])
  | succ rounds ih =>
    cases current with
    | nil => exact absurd h (by simp [decodeStringLoop])
    | cons c current =>
      have hcons := List.suffix_cons c current
      unfold decodeStringLoop at h
      split at h
      · exact absurd h (by simp)
      · split at h
        · cases current with
          | nil =>
            obtain rfl := Except.error.inj h
            exact List.nil_suffix
          | cons escape current =>
            have hescape := (List.suffix_cons escape current).trans hcons
            simp only at h
            split at h
            · have hstays := stays_decodeUnicodeCodePoint current
              cases hcode : decodeUnicodeCodePoint current with
              | ok decoded =>
                rw [hcode] at h hstays
                exact ((ih h).trans hstays).trans hescape
              | error bad =>
                rw [hcode] at h hstays
                obtain rfl := Except.error.inj h
                exact List.IsSuffix.trans hstays hescape
            · split at h
              · exact (ih h).trans hescape
              · obtain rfl := Except.error.inj h
                exact hescape
        · exact (ih h).trans hcons

theorem extra_suffix {content : StdString} {bad : BadString}
    (h : decodeString content = .error bad) : bad.extra <:+ content :=
  extra_suffix_of_decodeStringLoop h

/-! ## Every outcome is sound -/

/-- The error points into what there was to read. -/
structure ErrorInfo.Within (info : ErrorInfo) (current : Location) : Prop where
  start : info.token.start <:+ current
  stop : info.token.stop <:+ info.token.start
  extra : ∀ extra ∈ info.extra, info.token.stop <:+ extra ∧ extra <:+ info.token.start

theorem ErrorInfo.Within.mono {info : ErrorInfo} {current current' : Location}
    (h : info.Within current') (hsuffix : current' <:+ current) : info.Within current :=
  ⟨h.start.trans hsuffix, h.stop, h.extra⟩

/-- The reader moves forward. It records one error where it does not succeed, and none where it
does. -/
structure Outcome.Sound (s : Reading) (o : Outcome) : Prop where
  suffix : o.reading.current <:+ s.current
  errors_eq : o.successful = true → o.reading.errors = s.errors
  errors_append : o.successful = false →
    ∃ info : ErrorInfo, info.Within s.current ∧ o.reading.errors = s.errors ++ [info]

variable {setup : Setup} {s s' : Reading} {o : Outcome} {value : Value} {info : ErrorInfo}

theorem Outcome.Sound.ok (hsuffix : s'.current <:+ s.current) (herrors : s'.errors = s.errors) :
    Outcome.Sound s ⟨true, value, s'⟩ := ⟨hsuffix, fun _ => herrors, fun h => absurd h (by simp)⟩

theorem Outcome.Sound.fail (hsuffix : s'.current <:+ s.current) (hwithin : info.Within s.current)
    (herrors : s'.errors = s.errors ++ [info]) : Outcome.Sound s ⟨false, value, s'⟩ :=
  ⟨hsuffix, fun h => absurd h (by simp), fun _ => ⟨info, hwithin, herrors⟩⟩

theorem Outcome.Sound.after (h : Outcome.Sound s' o) (hsuffix : s'.current <:+ s.current)
    (herrors : s'.errors = s.errors) : Outcome.Sound s o := by
  refine ⟨h.suffix.trans hsuffix, fun hok => (h.errors_eq hok).trans herrors, fun hfail => ?_⟩
  obtain ⟨info, hwithin, hinfo⟩ := h.errors_append hfail
  exact ⟨info, hwithin.mono hsuffix, herrors ▸ hinfo⟩

/-- A failure is passed on: more of the document is skipped, and no error added. -/
theorem Outcome.Sound.recovered (h : Outcome.Sound s o) (hfail : o.successful = false)
    (hsuffix : s'.current <:+ o.reading.current) (herrors : s'.errors = o.reading.errors) :
    Outcome.Sound s ⟨false, value, s'⟩ := by
  obtain ⟨info, hwithin, hinfo⟩ := h.errors_append hfail
  exact .fail (hsuffix.trans h.suffix) hwithin (herrors.trans hinfo)

theorem recoverLoop_suffix (behind : Char) (skipUntilToken : TokenType) (rounds : Nat)
    (current : Location) :
    Reading.recoverLoop behind skipUntilToken rounds current <:+ current := by
  induction rounds generalizing current with
  | zero => exact List.suffix_refl current
  | succ rounds ih =>
    rw [Reading.recoverLoop]
    split
    · exact stop_suffix behind current
    · exact (ih _).trans (stop_suffix behind current)

theorem recoverFromError_suffix (s : Reading) (setup : Setup) (type : TokenType) :
    (s.recoverFromError setup type).current <:+ s.current := recoverLoop_suffix _ _ _ _

/-- An error at a token of what there is to read. -/
theorem within_of_token {token : Token} {message : StdString}
    (h : TokenOf setup.behind s.current token) :
    ErrorInfo.Within { token, message } s.current :=
  ⟨h.start_suffix, h.stop_suffix_start, fun _ hextra => absurd hextra (by simp)⟩

theorem within_numberOf {token : Token} (htoken : TokenOf setup.behind s.current token)
    (h : numberOf setup token = .error info) : info.Within s.current := by
  rw [numberOf] at h
  split at h
  · exact absurd h (by simp)
  · obtain rfl := Except.error.inj h
    exact within_of_token htoken

theorem within_stringOf {token : Token} (htoken : TokenOf setup.behind s.current token)
    (htype : token.type = .string) (h : stringOf token = .error info) : info.Within s.current := by
  obtain ⟨content, -, hstart, htext⟩ := htoken.string htype
  rw [stringOf, htext] at h
  split at h
  · exact absurd h (by simp)
  · rename_i bad hbad
    obtain rfl := Except.error.inj h
    obtain ⟨before, hbefore⟩ := extra_suffix hbad
    refine ⟨htoken.start_suffix, htoken.stop_suffix_start, fun extra hextra => ?_⟩
    obtain rfl := Option.some.inj hextra
    refine ⟨⟨bad.extra ++ ['"'], by simp⟩, ⟨'"' :: before, ?_⟩⟩
    rw [hstart, ← hbefore]
    simp

theorem within_nameOf {token : Token} (htoken : TokenOf setup.behind s.current token)
    (h : nameOf setup token = some (.error info)) : info.Within s.current := by
  rw [nameOf] at h
  split at h
  · rename_i htype
    exact within_stringOf htoken htype (Option.some.inj h)
  · split at h
    · split at h
      · exact absurd h (by simp)
      · rename_i info' hnumber
        obtain rfl := Except.error.inj (Option.some.inj h)
        exact within_numberOf htoken hnumber
    · exact absurd h (by simp)

theorem Outcome.Sound.decoded {r : Except ErrorInfo Value} (hsuffix : s'.current <:+ s.current)
    (herrors : s'.errors = s.errors) (hwithin : ∀ info, r = .error info → info.Within s.current) :
    Outcome.Sound s (s'.decoded value r) := by
  cases r with
  | ok value => exact .ok hsuffix herrors
  | error info => exact .fail hsuffix (hwithin info rfl) (congrArg (· ++ [info]) herrors)

theorem Outcome.Sound.addErrorAndRecover {type : TokenType} (hsuffix : s'.current <:+ s.current)
    (herrors : s'.errors = s.errors) (hwithin : info.Within s.current) :
    Outcome.Sound s ⟨false, value, s'.addErrorAndRecover setup info type⟩ :=
  .fail ((recoverFromError_suffix _ setup type).trans hsuffix) hwithin
    (congrArg (· ++ [info]) herrors)

/-! ## Every outcome is sound -/

/-- The four functions are, on this fuel. -/
structure AllSound (setup : Setup) (fuel : Nat) : Prop where
  readValue : ∀ {value s o}, readValue setup fuel value s = some o → o.Sound s
  readObject : ∀ {name members s o}, readObject setup fuel name members s = some o → o.Sound s
  readArray : ∀ {s o}, readArray setup fuel s = some o → o.Sound s
  readElements : ∀ {elems s o}, readElements setup fuel elems s = some o → o.Sound s

theorem sound_readValue {fuel : Nat} (ih : AllSound setup fuel)
    (h : readValue setup (fuel + 1) value s = some o) : o.Sound s := by
  have htoken := TokenOf.skipCommentTokens setup.features setup.behind s.current
  rw [readValue] at h
  generalize skipCommentTokens setup.features setup.behind s.current = token at h htoken
  have hstop := htoken.stop_suffix
  cases htype : token.type with
  | objectBegin =>
    simp only [htype] at h
    exact (ih.readObject h).after hstop rfl
  | arrayBegin =>
    simp only [htype] at h
    exact (ih.readArray h).after hstop rfl
  | number =>
    simp only [htype, Option.some.injEq] at h
    subst h
    exact .decoded hstop rfl fun info h => within_numberOf htoken h
  | string =>
    simp only [htype, Option.some.injEq] at h
    subst h
    refine .decoded hstop rfl fun info h => ?_
    cases hstring : stringOf token with
    | ok decoded =>
      rw [hstring] at h
      exact absurd h (by simp [Except.map])
    | error info' =>
      rw [hstring] at h
      obtain rfl := Except.error.inj h
      exact within_stringOf htoken htype hstring
  | true | false | null =>
    simp only [htype, Option.some.injEq] at h
    subst h
    exact .ok hstop rfl
  | arraySeparator =>
    simp only [htype] at h
    split at h
    · obtain rfl := Option.some.inj h
      exact .ok htoken.start_suffix rfl
    · obtain rfl := Option.some.inj h
      exact .fail hstop (within_of_token htoken) rfl
  | _ =>
    simp only [htype, Option.some.injEq] at h
    subst h
    exact .fail hstop (within_of_token htoken) rfl

theorem sound_afterMember {members : List (StdString × Value)} {outcome : Outcome}
    {again : Reading → Option Outcome} (hsound : outcome.Sound s)
    (hagain : ∀ {s o}, again s = some o → o.Sound s)
    (h : afterMember setup members outcome again = some o) : o.Sound s := by
  unfold afterMember at h
  dsimp only [Reading.moveTo] at h
  split at h
  · rename_i hfail
    obtain rfl := Option.some.inj h
    exact hsound.recovered hfail (recoverFromError_suffix _ _ _) rfl
  · rename_i hok
    have herrors := hsound.errors_eq (by simpa using hok)
    have hfirst := (TokenOf.readToken setup.behind outcome.reading.current).mono hsound.suffix
    have hcomma := (TokenOf.skipComments setup.behind outcome.reading.current).mono hsound.suffix
    split at h
    · obtain rfl := Option.some.inj h
      exact .addErrorAndRecover hfirst.stop_suffix herrors (within_of_token hfirst)
    · split at h
      · obtain rfl := Option.some.inj h
        exact .ok hcomma.stop_suffix herrors
      · exact (hagain h).after hcomma.stop_suffix herrors

theorem sound_afterElement {elems : List Value} {outcome : Outcome}
    {again : Reading → Option Outcome} (hsound : outcome.Sound s)
    (hagain : ∀ {s o}, again s = some o → o.Sound s)
    (h : afterElement setup elems outcome again = some o) : o.Sound s := by
  unfold afterElement at h
  dsimp only [Reading.moveTo] at h
  split at h
  · rename_i hfail
    obtain rfl := Option.some.inj h
    exact hsound.recovered hfail (recoverFromError_suffix _ _ _) rfl
  · rename_i hok
    have herrors := hsound.errors_eq (by simpa using hok)
    have htoken := (TokenOf.skipComments setup.behind outcome.reading.current).mono hsound.suffix
    split at h
    · obtain rfl := Option.some.inj h
      exact .ok htoken.stop_suffix herrors
    · split at h
      · exact (hagain h).after htoken.stop_suffix herrors
      · obtain rfl := Option.some.inj h
        exact .addErrorAndRecover htoken.stop_suffix herrors (within_of_token htoken)

theorem sound_readObject {fuel : Nat} (ih : AllSound setup fuel) {name : StdString}
    {members : List (StdString × Value)}
    (h : readObject setup (fuel + 1) name members s = some o) : o.Sound s := by
  have hname := TokenOf.skipComments setup.behind s.current
  rw [readObject] at h
  generalize skipComments setup.behind s.current = tokenName at h hname
  have hstop := hname.stop_suffix
  split at h
  · obtain rfl := Option.some.inj h
    exact .ok hstop rfl
  · split at h
    · obtain rfl := Option.some.inj h
      exact .addErrorAndRecover hstop rfl (within_of_token hname)
    · rename_i info hbad
      obtain rfl := Option.some.inj h
      exact .addErrorAndRecover hstop rfl (within_nameOf hname hbad)
    · rename_i name _
      have hcolon := (TokenOf.readToken setup.behind tokenName.stop).mono hstop
      dsimp only [Reading.moveTo] at h
      generalize readToken setup.behind tokenName.stop = colon at h hcolon
      split at h
      · obtain rfl := Option.some.inj h
        exact .addErrorAndRecover hcolon.stop_suffix rfl (within_of_token hcolon)
      · split at h
        · exact absurd h (by simp)
        · rename_i outcome hvalue
          have hsound := (ih.readValue hvalue).after hcolon.stop_suffix rfl
          exact sound_afterMember hsound ih.readObject h

theorem sound_readArray {fuel : Nat} (ih : AllSound setup fuel)
    (h : readArray setup (fuel + 1) s = some o) : o.Sound s := by
  have hspaces := skipSpaces_suffix s.current
  rw [readArray] at h
  split at h
  · obtain rfl := Option.some.inj h
    exact .ok ((stop_suffix _ _).trans hspaces) rfl
  · exact (ih.readElements h).after hspaces rfl

theorem sound_readElements {fuel : Nat} (ih : AllSound setup fuel) {elems : List Value}
    (h : readElements setup (fuel + 1) elems s = some o) : o.Sound s := by
  rw [readElements] at h
  split at h
  · exact absurd h (by simp)
  · rename_i outcome hvalue
    exact sound_afterElement (ih.readValue hvalue) ih.readElements h

theorem allSound (setup : Setup) (fuel : Nat) : AllSound setup fuel := by
  induction fuel with
  | zero =>
    constructor
    · exact fun h => absurd h (by simp [readValue])
    · exact fun h => absurd h (by simp [readObject])
    · exact fun h => absurd h (by simp [readArray])
    · exact fun h => absurd h (by simp [readElements])
  | succ fuel ih =>
    constructor
    · exact sound_readValue ih
    · exact sound_readObject ih
    · exact sound_readArray ih
    · exact sound_readElements ih

/-! ## The fuel is enough -/

theorem skipComments_stop_length_lt {behind : Char} {current : Location}
    (h : (readToken behind current).type ≠ .endOfStream) :
    (skipComments behind current).stop.length < current.length := by
  by_cases hcomment : (readToken behind current).type = .comment
  · rw [skipComments_of_comment hcomment]
    exact Nat.lt_of_le_of_lt (TokenOf.skipComments behind _).stop_suffix.length_le
      (stop_length_lt h)
  · rw [skipComments_of_ne hcomment]
    exact stop_length_lt h

theorem afterMember_isSome {members : List (StdString × Value)} {outcome : Outcome}
    {again : Reading → Option Outcome}
    (hagain : ∀ s, s.current.length < outcome.reading.current.length → (again s).isSome) :
    (afterMember setup members outcome again).isSome := by
  unfold afterMember
  dsimp only
  split
  · rfl
  · split
    · rfl
    · rename_i hcomma
      split
      · rfl
      · -- a comma or a comment was taken
        refine hagain _ (skipComments_stop_length_lt fun hend => hcomma ?_)
        rw [hend]
        decide

theorem afterElement_isSome {elems : List Value} {outcome : Outcome}
    {again : Reading → Option Outcome}
    (hagain : ∀ s, s.current.length < outcome.reading.current.length → (again s).isSome) :
    (afterElement setup elems outcome again).isSome := by
  unfold afterElement
  dsimp only
  split
  · rfl
  · split
    · rfl
    · split
      · rename_i hseparator
        exact hagain _ ((TokenOf.skipComments _ _).stop_length_lt (by rw [hseparator]; decide))
      · rfl

theorem nameOf_eq_none {token : Token} (h : token.type = .endOfStream) :
    nameOf setup token = none := by
  rw [nameOf, h, if_neg (by decide), if_neg (by simp)]

/-- So much fuel each of the functions needs for a text of that length. -/
structure AllEnd (setup : Setup) (fuel : Nat) : Prop where
  readValue : ∀ value s, 3 * s.current.length + 1 ≤ fuel → (readValue setup fuel value s).isSome
  readObject : ∀ {name members s}, 3 * s.current.length + 3 ≤ fuel →
    (readObject setup fuel name members s).isSome
  readArray : ∀ {s}, 3 * s.current.length + 3 ≤ fuel → (readArray setup fuel s).isSome
  readElements : ∀ {elems s}, 3 * s.current.length + 2 ≤ fuel →
    (readElements setup fuel elems s).isSome

theorem readValue_isSome {fuel : Nat} (ih : AllEnd setup fuel)
    (h : 3 * s.current.length + 1 ≤ fuel + 1) : (readValue setup (fuel + 1) value s).isSome := by
  have htoken := TokenOf.skipCommentTokens setup.features setup.behind s.current
  rw [readValue]
  generalize skipCommentTokens setup.features setup.behind s.current = token at htoken
  cases htype : token.type with
  | objectBegin =>
    have hlt := htoken.stop_length_lt (by rw [htype]; decide)
    exact ih.readObject (by simp only [Reading.moveTo]; omega)
  | arrayBegin =>
    have hlt := htoken.stop_length_lt (by rw [htype]; decide)
    exact ih.readArray (by simp only [Reading.moveTo]; omega)
  | arraySeparator =>
    dsimp only
    split
    · rfl
    · rfl
  | _ => rfl

theorem readObject_isSome {fuel : Nat} (ih : AllEnd setup fuel) {name : StdString}
    {members : List (StdString × Value)} (h : 3 * s.current.length + 3 ≤ fuel + 1) :
    (readObject setup (fuel + 1) name members s).isSome := by
  have hname := TokenOf.skipComments setup.behind s.current
  rw [readObject]
  generalize skipComments setup.behind s.current = tokenName at hname
  dsimp only [Reading.moveTo]
  split
  · rfl
  · split
    · rfl
    · rfl
    · rename_i name' hread
      have hlt := hname.stop_length_lt fun hend => absurd hread (by rw [nameOf_eq_none hend]; simp)
      split
      · rfl
      · have hcolon := (stop_suffix setup.behind tokenName.stop).length_le
        have hsome := ih.readValue (memberAt members (cString name'))
          ⟨(readToken setup.behind tokenName.stop).stop, s.errors⟩ (by dsimp only; omega)
        obtain ⟨outcome, hvalue⟩ := Option.isSome_iff_exists.mp hsome
        rw [hvalue]
        have hsuffix := ((allSound setup fuel).readValue hvalue).suffix.length_le
        refine afterMember_isSome fun s' hs' => ih.readObject ?_
        dsimp only at hsuffix
        omega

theorem readArray_isSome {fuel : Nat} (ih : AllEnd setup fuel)
    (h : 3 * s.current.length + 3 ≤ fuel + 1) : (readArray setup (fuel + 1) s).isSome := by
  have hspaces := (skipSpaces_suffix s.current).length_le
  rw [readArray]
  split
  · rfl
  · exact ih.readElements (by dsimp only [Reading.moveTo]; omega)

theorem readElements_isSome {fuel : Nat} (ih : AllEnd setup fuel) {elems : List Value}
    (h : 3 * s.current.length + 2 ≤ fuel + 1) :
    (readElements setup (fuel + 1) elems s).isSome := by
  rw [readElements]
  obtain ⟨outcome, hvalue⟩ := Option.isSome_iff_exists.mp
    (ih.readValue .nullValue s (by omega))
  rw [hvalue]
  have hsuffix := ((allSound setup fuel).readValue hvalue).suffix.length_le
  exact afterElement_isSome fun s' hs' => ih.readElements (by omega)

theorem allEnd (setup : Setup) (fuel : Nat) : AllEnd setup fuel := by
  induction fuel with
  | zero =>
    constructor
    · exact fun _ _ h => absurd h (by omega)
    · exact fun h => absurd h (by omega)
    · exact fun h => absurd h (by omega)
    · exact fun h => absurd h (by omega)
  | succ fuel ih =>
    constructor
    · exact fun _ _ => readValue_isSome ih
    · exact readObject_isSome ih
    · exact readArray_isSome ih
    · exact readElements_isSome ih

/-! ## More fuel changes nothing -/

theorem afterMember_more {members : List (StdString × Value)} {outcome : Outcome}
    {again again' : Reading → Option Outcome}
    (hagain : ∀ {s o}, again s = some o → again' s = some o)
    (h : afterMember setup members outcome again = some o) :
    afterMember setup members outcome again' = some o := by
  unfold afterMember at h ⊢
  dsimp only at h ⊢
  split at h
  · rename_i hfail
    rw [if_pos hfail, h]
  · rename_i hok
    rw [if_neg hok]
    split at h
    · rename_i hcomma
      rw [if_pos hcomma, h]
    · rename_i hcomma
      rw [if_neg hcomma]
      split at h
      · rename_i hend
        rw [if_pos hend, h]
      · rename_i hmore
        rw [if_neg hmore]
        exact hagain h

theorem afterElement_more {elems : List Value} {outcome : Outcome}
    {again again' : Reading → Option Outcome}
    (hagain : ∀ {s o}, again s = some o → again' s = some o)
    (h : afterElement setup elems outcome again = some o) :
    afterElement setup elems outcome again' = some o := by
  unfold afterElement at h ⊢
  dsimp only at h ⊢
  split at h
  · rename_i hfail
    rw [if_pos hfail, h]
  · rename_i hok
    rw [if_neg hok]
    split at h
    · rename_i hend
      rw [if_pos hend, h]
    · rename_i hmore
      rw [if_neg hmore]
      split at h
      · rename_i hseparator
        rw [if_pos hseparator]
        exact hagain h
      · rename_i hseparator
        rw [if_neg hseparator, h]

/-- What the four functions answer on this fuel they answer on the next. -/
structure AllMore (setup : Setup) (fuel : Nat) : Prop where
  readValue : ∀ {value s o}, readValue setup fuel value s = some o →
    readValue setup (fuel + 1) value s = some o
  readObject : ∀ {name members s o}, readObject setup fuel name members s = some o →
    readObject setup (fuel + 1) name members s = some o
  readArray : ∀ {s o}, readArray setup fuel s = some o → readArray setup (fuel + 1) s = some o
  readElements : ∀ {elems s o}, readElements setup fuel elems s = some o →
    readElements setup (fuel + 1) elems s = some o

theorem more_readValue {fuel : Nat} (ih : AllMore setup fuel)
    (h : readValue setup (fuel + 1) value s = some o) :
    readValue setup (fuel + 1 + 1) value s = some o := by
  rw [readValue] at h ⊢
  split at h
  · exact ih.readObject h
  · exact ih.readArray h
  all_goals exact h

theorem more_readObject {fuel : Nat} (ih : AllMore setup fuel) {name : StdString}
    {members : List (StdString × Value)} (h : readObject setup (fuel + 1) name members s = some o) :
    readObject setup (fuel + 1 + 1) name members s = some o := by
  rw [readObject] at h ⊢
  dsimp only at h ⊢
  split at h
  · rename_i hend
    rw [if_pos hend, h]
  · rename_i hname
    rw [if_neg hname]
    split at h
    · exact h
    · exact h
    · split at h
      · rename_i hcolon
        rw [if_pos hcolon, h]
      · rename_i hcolon
        rw [if_neg hcolon]
        split at h
        · exact absurd h (by simp)
        · rename_i outcome hvalue
          rw [ih.readValue hvalue]
          exact afterMember_more ih.readObject h

theorem more_readArray {fuel : Nat} (ih : AllMore setup fuel)
    (h : readArray setup (fuel + 1) s = some o) : readArray setup (fuel + 1 + 1) s = some o := by
  rw [readArray] at h ⊢
  split at h
  · rename_i hend
    rw [if_pos hend, h]
  · rename_i hmore
    rw [if_neg hmore]
    exact ih.readElements h

theorem more_readElements {fuel : Nat} (ih : AllMore setup fuel) {elems : List Value}
    (h : readElements setup (fuel + 1) elems s = some o) :
    readElements setup (fuel + 1 + 1) elems s = some o := by
  rw [readElements] at h ⊢
  split at h
  · exact absurd h (by simp)
  · rename_i outcome hvalue
    rw [ih.readValue hvalue]
    exact afterElement_more ih.readElements h

theorem allMore (setup : Setup) (fuel : Nat) : AllMore setup fuel := by
  induction fuel with
  | zero =>
    constructor
    · exact fun h => absurd h (by simp [readValue])
    · exact fun h => absurd h (by simp [readObject])
    · exact fun h => absurd h (by simp [readArray])
    · exact fun h => absurd h (by simp [readElements])
  | succ fuel ih =>
    constructor
    · exact more_readValue ih
    · exact more_readObject ih
    · exact more_readArray ih
    · exact more_readElements ih

theorem readValue_more {fuel : Nat} (h : readValue setup fuel value s = some o) (extra : Nat) :
    readValue setup (fuel + extra) value s = some o := by
  induction extra with
  | zero => exact h
  | succ extra ih => exact (allMore setup (fuel + extra)).readValue ih

/-! ## What `parse` reports -/

/-- `Reader::StructuredError`. -/
structure StructuredError where
  offsetStart : Nat
  offsetLimit : Nat
  message : StdString
deriving DecidableEq, Repr

def getStructuredErrors (document : Location) (errors : List ErrorInfo) : List StructuredError :=
  errors.map fun info =>
    ⟨document.length - info.token.start.length, document.length - info.token.stop.length,
      info.message⟩

theorem parse_eq (setup : Setup) (document : StdString) :
    ∃ outcome : Outcome, outcome.Sound ⟨document, []⟩ ∧
      readValue setup (3 * document.length + 3) .nullValue ⟨document, []⟩ = some outcome ∧
      parse setup document =
        let s := outcome.reading.moveTo
          (skipCommentTokens setup.features setup.behind outcome.reading.current).stop
        if setup.features.strictRoot && !isContainer outcome.value then
          some ⟨false, outcome.value,
            s.addError { token := ⟨.error, document, []⟩, message := invalidRoot }⟩
        else some { outcome with reading := s } := by
  obtain ⟨outcome, hvalue⟩ := Option.isSome_iff_exists.mp
    ((allEnd setup (3 * document.length + 3)).readValue .nullValue ⟨document, []⟩
      (by dsimp only; omega))
  refine ⟨outcome, (allSound setup _).readValue hvalue, hvalue, ?_⟩
  rw [parse, hvalue]

theorem ErrorInfo.Within.length_le {document : Location} (h : info.Within document) :
    info.token.stop.length ≤ info.token.start.length ∧
      info.token.start.length ≤ document.length := ⟨h.stop.length_le, h.start.length_le⟩

theorem within_invalidRoot (document : Location) :
    ErrorInfo.Within { token := ⟨.error, document, []⟩, message := invalidRoot } document :=
  ⟨List.suffix_refl _, List.nil_suffix, fun _ hextra => absurd hextra (by simp)⟩

/-- **Every document comes to an end, and `parse` answers `true` exactly where it reports no error.**
It reports one of the text at most, and one of the root's type; they lie in the document. -/
theorem parse_reports (setup : Setup) (document : StdString) :
    ∃ o, parse setup document = some o ∧
      (o.successful = true ↔ getStructuredErrors document o.reading.errors = []) ∧
      (getStructuredErrors document o.reading.errors).length ≤
        (if setup.features.strictRoot then 2 else 1) ∧
      ∀ error ∈ getStructuredErrors document o.reading.errors,
        error.offsetStart ≤ error.offsetLimit ∧ error.offsetLimit ≤ document.length := by
  obtain ⟨outcome, hsound, -, hparse⟩ := parse_eq setup document
  have hroot := within_invalidRoot document
  suffices h : ∃ o, parse setup document = some o ∧
      (o.successful = true ↔ o.reading.errors = []) ∧
      o.reading.errors.length ≤ (if setup.features.strictRoot then 2 else 1) ∧
      ∀ info ∈ o.reading.errors, info.Within document by
    obtain ⟨o, hparse, hok, hlength, hwithin⟩ := h
    simp only [getStructuredErrors, List.map_eq_nil_iff, List.length_map, List.forall_mem_map]
    refine ⟨o, hparse, hok, hlength, fun info hinfo => ?_⟩
    have hlengths := (hwithin info hinfo).length_le
    omega
  rw [hparse]
  cases hsuccess : outcome.successful with
  | true =>
    have hnone : outcome.reading.errors = [] := hsound.errors_eq hsuccess
    dsimp only [Reading.moveTo]
    split
    · rename_i hstrict
      rw [Bool.and_eq_true] at hstrict
      refine ⟨_, rfl, ?_⟩
      simp only [Reading.addError, hnone, hstrict.1, List.nil_append, if_true]
      exact ⟨by simp, by simp, fun info hinfo => List.mem_singleton.mp hinfo ▸ hroot⟩
    · exact ⟨_, rfl, by simp [hnone], by simp [hnone], by simp [hnone]⟩
  | false =>
    obtain ⟨info, hwithin, hone⟩ := hsound.errors_append hsuccess
    have hone : outcome.reading.errors = [info] := hone
    dsimp only [Reading.moveTo]
    split
    · rename_i hstrict
      rw [Bool.and_eq_true] at hstrict
      refine ⟨_, rfl, ?_⟩
      simp only [Reading.addError, hone, hstrict.1, if_true]
      refine ⟨by simp, by simp, fun info' hinfo => ?_⟩
      rcases List.mem_append.mp hinfo with hinfo | hinfo
      · exact List.mem_singleton.mp hinfo ▸ hwithin
      · exact List.mem_singleton.mp hinfo ▸ hroot
    · refine ⟨_, rfl, by simp [hone], ?_, ?_⟩
      · rw [hone, List.length_singleton]
        split
        · decide
        · decide
      · rw [hone]
        exact fun info' hinfo => List.mem_singleton.mp hinfo ▸ hwithin

end DevScan.Json.Reader
