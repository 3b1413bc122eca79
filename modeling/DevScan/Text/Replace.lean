import DevScan.Text.Split

/-!
# `Text/Replace.lean` — `hbm::string::replace`

The `while` of `hbm/string/replace.cpp` finds `search` from `position` on, puts `substitute` in
its place and goes on `search.length()` characters behind the place — not behind what it has
put there. The loop has no bound of its own, so the model gives it a number of rounds and says
`none` when they are over; the call **returns** if some number of rounds is enough.

What the rounds do to the text from `position` on is the relation `Rewrites`: a round is taken
exactly as long as `search` occurs there. Whether there is an end, and what the text is then,
are inductions on it.
-/

set_option autoImplicit false

namespace DevScan.Text

/-- `text.replace(position, count, substitute)`. -/
def replaceAt (text : StdString) (position count : Nat) (substitute : StdString) : StdString :=
  text.take position ++ substitute ++ text.drop (position + count)

/-- The `while` of `replace`, from `position` on, for at most so many rounds. -/
def replaceLoop (search substitute : StdString) : Nat → StdString → Nat → Option StdString
  | 0, _, _ => none
  | rounds + 1, text, position =>
    match find text search position with
    | none => some text
    | some position =>
      replaceLoop search substitute rounds
        (replaceAt text position search.length substitute) (position + search.length)

/-- `replace(text, search, substitute)` returns `result`. -/
def Returns (text search substitute result : StdString) : Prop :=
  ∃ rounds, replaceLoop search substitute rounds text 0 = some result

/-! ## The rounds on the text from `position` on -/

/-- The loop ends, and has made `result` of the text it had in front of it. -/
inductive Rewrites (search substitute : StdString) : StdString → StdString → Prop
  | done {rest : StdString} : ¬search <:+: rest → Rewrites search substitute rest rest
  | round {rest before behind result : StdString} :
      Lib.FirstAt search rest before behind →
      Rewrites search substitute ((substitute ++ behind).drop search.length) result →
      Rewrites search substitute rest
        (before ++ ((substitute ++ behind).take search.length ++ result))

variable {text search substitute before behind rest result : StdString}

/-- A round leaves the text in front of the occurrence, and goes on in what it has put there. -/
theorem replaceAt_firstAt (substitute : StdString) {position : Nat} (hsearch : search ≠ [])
    (h : Lib.FirstAt search (text.drop position) before behind) :
    (replaceAt text (position + before.length) search.length substitute).take
        (position + before.length + search.length) =
      text.take position ++ (before ++ (substitute ++ behind).take search.length) ∧
    (replaceAt text (position + before.length) search.length substitute).drop
        (position + before.length + search.length) =
      (substitute ++ behind).drop search.length := by
  have hpositive : 0 < search.length := List.length_pos_iff.mpr hsearch
  have hlen : text.length - position = before.length + (search.length + behind.length) :=
    h.length_sub_eq
  have hfront : text.take (position + before.length) = text.take position ++ before := by
    rw [List.take_add, h.cut, List.take_left]
  have hback : text.drop (position + before.length + search.length) = behind := by
    rw [← List.drop_drop, ← List.drop_drop, h.cut, List.drop_left, List.drop_left]
  have hfrontLength : (text.take position ++ before).length = position + before.length := by
    rw [List.length_append, List.length_take]; omega
  rw [replaceAt, hfront, hback, List.append_assoc, ← hfrontLength]
  refine ⟨?_, ?_⟩
  · rw [List.take_length_add_append, List.append_assoc]
  · rw [List.drop_length_add_append]

/-- **The loop is the relation.** -/
theorem replaceLoop_iff (hsearch : search ≠ []) (position : Nat) :
    (∃ rounds, replaceLoop search substitute rounds text position = some result) ↔
      ∃ written, Rewrites search substitute (text.drop position) written ∧
        result = text.take position ++ written := by
  constructor
  · rintro ⟨rounds, h⟩
    induction rounds generalizing text position with
    | zero => exact absurd h (by simp [replaceLoop])
    | succ rounds ih =>
      rw [replaceLoop] at h
      rcases Lib.absent_or_firstAt search (text.drop position) with habsent | ⟨before, behind, hfirst⟩
      · rw [find_absent habsent] at h
        refine ⟨_, .done habsent, ?_⟩
        rw [List.take_append_drop]
        exact (Option.some.inj h).symm
      · rw [find_firstAt hsearch hfirst] at h
        obtain ⟨htake, hdrop⟩ := replaceAt_firstAt substitute hsearch hfirst
        obtain ⟨written, hwritten, hresult⟩ := ih _ h
        rw [hdrop] at hwritten
        refine ⟨_, .round hfirst hwritten, ?_⟩
        rw [hresult, htake, List.append_assoc, List.append_assoc]
  · rintro ⟨written, hwritten, rfl⟩
    generalize hrest : text.drop position = rest at hwritten
    induction hwritten generalizing text position with
    | done habsent =>
      refine ⟨1, ?_⟩
      rw [replaceLoop, find_absent (hrest ▸ habsent), ← hrest, List.take_append_drop]
    | round hfirst _ ih =>
      subst hrest
      obtain ⟨htake, hdrop⟩ := replaceAt_firstAt substitute hsearch hfirst
      obtain ⟨rounds, hrounds⟩ := ih _ hdrop
      refine ⟨rounds + 1, ?_⟩
      rw [replaceLoop, find_firstAt hsearch hfirst]
      rw [htake, List.append_assoc, List.append_assoc] at hrounds
      exact hrounds

theorem returns_iff (hsearch : search ≠ []) :
    Returns text search substitute result ↔ Rewrites search substitute text result := by
  rw [Returns, replaceLoop_iff hsearch 0]
  simp only [List.drop_zero, List.take_zero, List.nil_append, exists_eq_right']

/-! ## When the loop ends -/

/-- What a round leaves in front of the loop is what the substitute is longer than `search`, and
then the text behind the occurrence. -/
theorem drop_substitute_append (search substitute behind : StdString) :
    (substitute ++ behind).drop search.length =
      substitute.drop search.length ++ behind.drop (search.length - substitute.length) :=
  List.drop_append

/-- As long as `search` occurs in what the substitute is longer, there is another round. -/
theorem Rewrites.absent_of_occurs (h : Rewrites search substitute rest result)
    (hoccurs : search <:+: substitute.drop search.length) : ¬search <:+: rest := by
  induction h with
  | done habsent => exact habsent
  | round _ _ ih =>
    rw [drop_substitute_append] at ih
    exact absurd (List.infix_append_of_infix_left hoccurs) ih

/-- Where `search` does not occur there, every round leaves less behind the inserted text. -/
theorem exists_rewrites_inserted (habsent : ¬search <:+: substitute.drop search.length)
    (behind : StdString) :
    ∃ result, Rewrites search substitute (substitute.drop search.length ++ behind) result := by
  induction h : behind.length using Nat.strongRecOn generalizing behind with
  | ind n ih =>
    rcases Lib.absent_or_firstAt search (substitute.drop search.length ++ behind) with
      hnone | ⟨before, rest, hfirst⟩
    · exact ⟨_, .done hnone⟩
    · have hlt : rest.length < n := h ▸ Lib.behind_lt_of_absent habsent hfirst.cut
      have hle : (rest.drop (search.length - substitute.length)).length ≤ rest.length := by
        rw [List.length_drop]; exact Nat.sub_le _ _
      obtain ⟨result, hresult⟩ := ih _ (Nat.lt_of_le_of_lt hle hlt) _ rfl
      rw [← drop_substitute_append] at hresult
      exact ⟨_, .round hfirst hresult⟩

/-- The loop ends exactly where `search` does not occur, or does not occur in what the substitute
is longer than it. -/
theorem exists_rewrites_iff :
    (∃ result, Rewrites search substitute text result) ↔
      ¬search <:+: text ∨ ¬search <:+: substitute.drop search.length := by
  constructor
  · rintro ⟨result, h⟩
    by_cases hoccurs : search <:+: substitute.drop search.length
    · exact Or.inl (h.absent_of_occurs hoccurs)
    · exact Or.inr hoccurs
  · intro habsent
    rcases Lib.absent_or_firstAt search text with hnone | ⟨before, behind, hfirst⟩
    · exact ⟨_, .done hnone⟩
    · have hinserted := habsent.resolve_left (not_not_intro hfirst.occurs)
      obtain ⟨result, hresult⟩ := exists_rewrites_inserted hinserted
        (behind.drop (search.length - substitute.length))
      rw [← drop_substitute_append] at hresult
      exact ⟨_, .round hfirst hresult⟩

/-- **When `replace` returns.** -/
theorem replace_returns_iff (hsearch : search ≠ []) :
    (∃ result, Returns text search substitute result) ↔
      ¬search <:+: text ∨ ¬search <:+: substitute.drop search.length := by
  simp only [returns_iff hsearch]
  exact exists_rewrites_iff

/-- Replacing a text by itself returns, as the test of the string overload expects. -/
theorem replace_same_returns :
    ∃ result, Returns "1..2..3".toList "..".toList "..".toList result :=
  (replace_returns_iff (by decide)).mpr (Or.inr (by decide))

/-- A substitute that ends in `search` and is longer: the loop finds what it has just written. -/
theorem replace_endless :
    "a".toList ≠ [] ∧ ¬∃ result, Returns "a".toList "a".toList "ba".toList result := by
  refine ⟨by decide, ?_⟩
  rintro ⟨result, hreturns⟩
  have h := (returns_iff (by decide)).mp hreturns
  exact absurd (h.absent_of_occurs (by decide)) (by decide)

/-! ## What it returns -/

/-- The text with every occurrence `split` cuts at replaced: its tokens, joined by the
substitute. -/
def replaced (text search substitute : StdString) : StdString :=
  substitute.intercalate (split text search)

theorem replaced_absent (h : ¬search <:+: text) : replaced text search substitute = text := by
  rw [replaced, split_absent h, List.intercalate_singleton]

theorem replaced_firstAt (hsearch : search ≠ []) (h : Lib.FirstAt search text before behind) :
    replaced text search substitute =
      before ++ (substitute ++ replaced behind search substitute) := by
  rw [replaced, split_firstAt hsearch h, List.intercalate_cons_of_ne_nil (split_ne_nil hsearch),
    List.append_assoc]
  rfl

/-- The text behind each separator, of a text given by its tokens. -/
def textsBehind (separator : StdString) : List StdString → List StdString
  | _ :: token :: tokens =>
    separator.intercalate (token :: tokens) :: textsBehind separator (token :: tokens)
  | _ => []

/-- Going on `search.length()` characters behind the place of an occurrence, with the substitute
there and `rest` behind it, `find` finds the next occurrence of `rest`: no other one, and none
if `rest` has none. -/
def FindsNext (search substitute rest : StdString) : Prop :=
  find (substitute ++ rest) search search.length =
    (find rest search 0).map (substitute.length + ·)

instance (search substitute rest : StdString) : Decidable (FindsNext search substitute rest) :=
  inferInstanceAs (Decidable (_ = _))

/-- **`replace` is not disturbed by what it writes**: behind each occurrence `split` cuts at it
finds the next one. -/
def Undisturbed (text search substitute : StdString) : Prop :=
  ∀ rest ∈ textsBehind search (split text search), FindsNext search substitute rest

instance (text search substitute : StdString) : Decidable (Undisturbed text search substitute) :=
  inferInstanceAs (Decidable (∀ rest ∈ _, _))

theorem undisturbed_firstAt (hsearch : search ≠ []) (h : Lib.FirstAt search text before behind) :
    Undisturbed text search substitute ↔
      FindsNext search substitute behind ∧ Undisturbed behind search substitute := by
  have hbehind := intercalate_split hsearch behind
  rw [Undisturbed, Undisturbed, split_firstAt hsearch h]
  cases htokens : split behind search with
  | nil => exact absurd htokens (split_ne_nil hsearch)
  | cons token tokens =>
    rw [htokens] at hbehind
    rw [textsBehind, List.forall_mem_cons, hbehind]

/-- Behind the first occurrence: as long as `find` finds the next one each time, the loop puts the
substitute there and nowhere else. -/
theorem Rewrites.replaced_inserted (hsearch : search ≠ []) {inserted : StdString}
    (h : Rewrites search substitute inserted result)
    (hinserted : inserted = (substitute ++ rest).drop search.length)
    (hnext : FindsNext search substitute rest) (hrest : Undisturbed rest search substitute) :
    (substitute ++ rest).take search.length ++ result =
      substitute ++ replaced rest search substitute := by
  induction h generalizing rest with
  | done habsent =>
    rw [hinserted] at habsent
    rw [FindsNext, find_absent habsent, eq_comm, Option.map_eq_none_iff,
      find_eq_none_iff hsearch, List.drop_zero] at hnext
    rw [hinserted, List.take_append_drop, replaced_absent hnext]
  | @round _ before behind result hfirst _ ih =>
    rw [hinserted] at hfirst
    rw [FindsNext, find_firstAt hsearch hfirst, eq_comm, Option.map_eq_some_iff] at hnext
    obtain ⟨i, hfind, hplace⟩ := hnext
    obtain ⟨before', behind', hfirst', rfl⟩ := (find_eq_some_iff hsearch).mp hfind
    rw [List.drop_zero] at hfirst'
    rw [Nat.zero_add] at hplace
    -- the place in the written text and the place in the rest are the same
    have hbehind : behind = behind' := by
      rw [← hfirst.drop_length, ← hfirst'.drop_length, List.drop_drop, ← Nat.add_assoc, ← hplace,
        Nat.add_assoc, List.drop_length_add_append]
    have hbefore : (substitute ++ rest).take search.length ++ before = substitute ++ before' := by
      rw [← hfirst.take_length, ← List.take_add, ← hplace, List.take_length_add_append,
        hfirst'.take_length]
    subst hbehind
    obtain ⟨hnext', hrest'⟩ := (undisturbed_firstAt hsearch hfirst').mp hrest
    rw [replaced_firstAt hsearch hfirst', ← ih rfl hnext' hrest', ← List.append_assoc, hbefore,
      List.append_assoc]

theorem Rewrites.replaced_of_absent (h : Rewrites search substitute text result)
    (habsent : ¬search <:+: text) : result = Text.replaced text search substitute := by
  cases h with
  | done _ => exact (replaced_absent habsent).symm
  | round hfirst _ => exact absurd hfirst.occurs habsent

theorem Rewrites.replaced (hsearch : search ≠ []) (h : Rewrites search substitute text result)
    (hundisturbed : Undisturbed text search substitute) :
    result = replaced text search substitute := by
  cases h with
  | done habsent => exact (replaced_absent habsent).symm
  | round hfirst hrest =>
    obtain ⟨hnext, hbehind⟩ := (undisturbed_firstAt hsearch hfirst).mp hundisturbed
    rw [hrest.replaced_inserted hsearch rfl hnext hbehind, ← replaced_firstAt hsearch hfirst]

/-! ## Substitutes that disturb no text -/

/-- The substitute is as long as `search`; or it is longer, and no end of what it is longer is the
start of `search`. Where all of `search` occurs there, `replace` returns only if there is nothing
to replace. -/
def Harmless (search substitute : StdString) : Prop :=
  substitute.length = search.length ∨
    search.length < substitute.length ∧
      (search <:+: substitute.drop search.length ∨
        ∀ overlap, overlap ≠ [] → overlap <:+ substitute.drop search.length →
          ¬overlap <+: search)

theorem findsNext_of_length_eq (hsearch : search ≠ [])
    (hlen : substitute.length = search.length) (rest : StdString) :
    FindsNext search substitute rest := by
  rw [FindsNext, find_drop hsearch, ← hlen, List.drop_left]

theorem findsNext_of_no_overlap (hsearch : search ≠ [])
    (hlt : search.length < substitute.length) (habsent : ¬search <:+: substitute.drop search.length)
    (hoverlap : ∀ overlap, overlap ≠ [] → overlap <:+ substitute.drop search.length →
      ¬overlap <+: search) (rest : StdString) : FindsNext search substitute rest := by
  have hdrop : (substitute ++ rest).drop search.length = substitute.drop search.length ++ rest :=
    List.drop_append_of_le_length (Nat.le_of_lt hlt)
  rw [FindsNext]
  rcases Lib.absent_or_firstAt search rest with hnone | ⟨before, behind, hfirst⟩
  · have hfind : find rest search 0 = none := find_absent hnone
    rw [hfind, find_absent (hdrop ▸ Lib.absent_append habsent hoverlap hnone)]
    rfl
  · have hfind : find rest search 0 = some (0 + before.length) := find_firstAt hsearch hfirst
    rw [hfind, find_firstAt hsearch (hdrop ▸ hfirst.append_left habsent hoverlap)]
    refine congrArg some ?_
    show search.length + (substitute.drop search.length ++ before).length =
      substitute.length + (0 + before.length)
    rw [List.length_append, List.length_drop]
    omega

/-- Each round makes the text longer by what the substitute is longer. -/
theorem Rewrites.length_le (h : Rewrites search substitute rest result)
    (hlt : search.length ≤ substitute.length) :
    rest.length ≤ result.length ∧ (search <:+: rest →
      rest.length + (substitute.length - search.length) ≤ result.length) := by
  induction h with
  | done habsent => exact ⟨Nat.le_refl _, fun hoccurs => absurd hoccurs habsent⟩
  | round hfirst _ ih =>
    have hle := ih.1
    have hlen := hfirst.length_eq
    rw [List.length_drop, List.length_append] at hle
    simp only [List.length_append, List.length_take]
    refine ⟨?_, fun _ => ?_⟩ <;> omega

/-- A shorter substitute skips the second of two occurrences in a row. -/
theorem length_le_of_replaced (hsearch : search ≠ [])
    (hall : ∀ result, Returns (search ++ search) search substitute result →
      result = replaced (search ++ search) search substitute) :
    search.length ≤ substitute.length := by
  refine Nat.le_of_not_lt fun hlt => ?_
  have hpositive : 0 < search.length := List.length_pos_iff.mpr hsearch
  have hshort : ¬search <:+: (substitute ++ search).drop search.length := fun hoccurs => by
    have hle := hoccurs.length_le
    rw [List.length_drop, List.length_append] at hle
    omega
  have hself : Lib.FirstAt search search [] [] := by
    simpa only [List.append_nil] using Lib.FirstAt.nil search []
  have hnil : replaced [] search substitute = [] := replaced_absent (by simpa using hsearch)
  have hresult := hall _ ((returns_iff hsearch).mpr
    (.round (Lib.FirstAt.nil search search) (.done hshort)))
  rw [replaced_firstAt hsearch (Lib.FirstAt.nil search search), replaced_firstAt hsearch hself,
    hnil, List.take_append_drop] at hresult
  have hlen := congrArg List.length hresult
  simp only [List.nil_append, List.append_nil, List.length_append] at hlen
  omega

/-- A longer substitute whose end can be the start of an occurrence is taken for one. -/
theorem no_overlap_of_replaced (hsearch : search ≠ [])
    (hlt : search.length < substitute.length) (habsent : ¬search <:+: substitute.drop search.length)
    (hall : ∀ text result, Returns text search substitute result →
      result = replaced text search substitute) {overlap : StdString} (hne : overlap ≠ [])
    (hend : overlap <:+ substitute.drop search.length) : ¬overlap <+: search := by
  rintro ⟨more, hmore⟩
  obtain ⟨front, hfront⟩ := hend
  have hpositive : 0 < overlap.length := List.length_pos_iff.mpr hne
  have hsplit : overlap.length + more.length = search.length := by
    rw [← List.length_append, hmore]
  have hfirst : Lib.FirstAt search (search ++ more) [] more := Lib.FirstAt.nil search more
  have hshort : ¬search <:+: more := fun hoccurs => by
    have hle := hoccurs.length_le
    omega
  obtain ⟨result, h⟩ : ∃ result, Rewrites search substitute (search ++ more) result :=
    exists_rewrites_iff.mpr (Or.inr habsent)
  have hresult := hall _ _ ((returns_iff hsearch).mpr h)
  rw [replaced_firstAt hsearch hfirst, replaced_absent hshort, List.nil_append] at hresult
  cases h with
  | done hnone => exact hnone hfirst.occurs
  | @round _ before behind result hfirst' hrest =>
    obtain ⟨rfl, rfl⟩ := hfirst.unique hfirst'
    have hoccurs : search <:+: (substitute ++ more).drop search.length := by
      rw [List.drop_append_of_le_length (Nat.le_of_lt hlt), ← hfront, List.append_assoc, hmore]
      exact (List.suffix_append front search).isInfix
    have hle := (hrest.length_le (Nat.le_of_lt hlt)).2 hoccurs
    have hlen := congrArg List.length hresult
    simp only [List.nil_append, List.length_append, List.length_take, List.length_drop] at hlen hle
    omega

/-- **When `replace` replaces all occurrences.** On a text: it does where it is not disturbed. On
all texts: exactly where the substitute is harmless. -/
theorem replace_replaces_all (hsearch : search ≠ []) :
    (∀ text, search <:+: substitute.drop search.length ∨ Undisturbed text search substitute →
      ∀ result, Returns text search substitute result →
        result = replaced text search substitute) ∧
    ((∀ text result, Returns text search substitute result →
      result = replaced text search substitute) ↔ Harmless search substitute) := by
  have hone : ∀ text, search <:+: substitute.drop search.length ∨
      Undisturbed text search substitute → ∀ result, Returns text search substitute result →
        result = replaced text search substitute := fun text hcondition result hreturns => by
    have h := (returns_iff hsearch).mp hreturns
    rcases hcondition with hoccurs | hundisturbed
    · exact h.replaced_of_absent (h.absent_of_occurs hoccurs)
    · exact h.replaced hsearch hundisturbed
  refine ⟨hone, fun hall => ?_, fun hharmless text => hone text ?_⟩
  · rcases Nat.eq_or_lt_of_le (length_le_of_replaced hsearch (hall _)) with heq | hlt
    · exact Or.inl heq.symm
    · refine Or.inr ⟨hlt, ?_⟩
      by_cases hoccurs : search <:+: substitute.drop search.length
      · exact Or.inl hoccurs
      · exact Or.inr fun overlap hne => no_overlap_of_replaced hsearch hlt hoccurs hall hne
  · by_cases hoccurs : search <:+: substitute.drop search.length
    · exact Or.inl hoccurs
    · refine Or.inr fun rest _ => ?_
      rcases hharmless with hlen | ⟨hlt, hharmless⟩
      · exact findsNext_of_length_eq hsearch hlen rest
      · exact findsNext_of_no_overlap hsearch hlt hoccurs (hharmless.resolve_left hoccurs) rest

/-- Two characters for two characters: the first example of the test. -/
theorem replace_replaces_all_same_length :
    "a  b".toList = replaced "a::b".toList "::".toList "  ".toList := by
  have hsearch : "::".toList ≠ [] := by decide
  refine (replace_replaces_all hsearch).2.mpr (Or.inl ?_) _ _ ⟨2, ?_⟩
  · rfl
  · decide

/-- One character for two: the second of two occurrences in a row stays. -/
theorem replace_skips :
    "aa".toList ≠ [] ∧ Returns "aaaa".toList "aa".toList "b".toList "baa".toList ∧
      replaced "aaaa".toList "aa".toList "b".toList = "bb".toList :=
  ⟨by decide, ⟨2, by decide⟩, by decide⟩

/-- A text can come out right although an occurrence was skipped. -/
example : Returns "abaababa".toList "aba".toList "a".toList "aaba".toList ∧
    replaced "abaababa".toList "aba".toList "a".toList = "aaba".toList ∧
    ¬Undisturbed "abaababa".toList "aba".toList "a".toList :=
  ⟨⟨3, by decide⟩, by decide, by decide⟩

end DevScan.Text
