/-
  EventCalendar.Proofs.Record.RuleText

  Texts of recurrence rules that say the same.  A text may be written in
  another way step by step: its parts in another order, parts put in that do
  not count, other blanks, letters in the other case, and the tokens of the
  days in another order, repeated or with ordinals.  Each step keeps what is
  looked up under the keys that count, so a whole rewriting does, and a record
  has the same dates with either text.
-/

import EventCalendar.Proofs.DateToken
import EventCalendar.Proofs.Record.RulePairs
import EventCalendar.Proofs.Text.Case
import Mathlib.Logic.Relation

namespace EventCalendar

open EventCalendar.Text

namespace RecurrenceRule

/-! ## Steps -/

/-- A sign, if any, and digits. -/
def IsOrdinal (cs : List Char) : Prop :=
  ∃ sign digits, cs = sign ++ digits ∧ sign ∈ [[], ['+'], ['-']] ∧ ∀ c ∈ digits, c.isDigit = true

/-- Another way to write the tokens of a list of days. -/
inductive TokenStep : List (List Char) → List (List Char) → Prop
  | reorder {tokens tokens' : List (List Char)} (h : tokens.Perm tokens') :
      TokenStep tokens tokens'
  | repeated {tokens : List (List Char)} {token : List Char} (h : token ∈ tokens) :
      TokenStep tokens (token :: tokens)
  | ordinal {before after : List (List Char)} {token ordinal : List Char} (h : IsOrdinal ordinal) :
      TokenStep (before ++ token :: after) (before ++ (ordinal ++ token) :: after)
  | blanks {before after : List (List Char)} {token token' : List Char}
      (h : trimBy isBlank token = trimBy isBlank token') :
      TokenStep (before ++ token :: after) (before ++ token' :: after)

/-- Another way to write one part of a text. -/
inductive PartStep : List Char → List Char → Prop
  /-- The key in letters of the other case and with other blanks around it. -/
  | key {key key' value : List Char} (hkey : '=' ∉ key) (hkey' : '=' ∉ key')
      (h : SameLetters (trimBy isBlank key) (trimBy isBlank key')) :
      PartStep (key ++ '=' :: value) (key' ++ '=' :: value)
  /-- The value with other blanks around it. -/
  | blanks {key value value' : List Char} (hkey : '=' ∉ key)
      (h : trimBy isBlank value = trimBy isBlank value') :
      PartStep (key ++ '=' :: value) (key ++ '=' :: value')
  /-- The frequency or the days in letters of the other case. -/
  | letters {key value value' : List Char} (hkey : '=' ∉ key)
      (hname : keyOf key = "freq" ∨ keyOf key = "byday") (h : SameLetters value value') :
      PartStep (key ++ '=' :: value) (key ++ '=' :: value')
  /-- The tokens of the days in another way. -/
  | days {key : List Char} {tokens tokens' : List (List Char)} (hkey : '=' ∉ key)
      (hname : keyOf key = "byday") (hcomma : ∀ token ∈ tokens, ',' ∉ token)
      (hcomma' : ∀ token ∈ tokens', ',' ∉ token) (h : TokenStep tokens tokens') :
      PartStep (key ++ '=' :: [','].intercalate tokens) (key ++ '=' :: [','].intercalate tokens')

/-- Another way to write the parts of a text. -/
inductive TextStep : List (List Char) → List (List Char) → Prop
  | reorder {parts parts' : List (List Char)} (h : parts.Perm parts') : TextStep parts parts'
  | change {before after : List (List Char)} {part part' : List Char} (h : PartStep part part') :
      TextStep (before ++ part :: after) (before ++ part' :: after)
  /-- A part with a key that does not count. -/
  | unknown {before after : List (List Char)} {key value : List Char} (hkey : '=' ∉ key)
      (h : keyOf key ∉ countedKeys) :
      TextStep (before ++ after) (before ++ (key ++ '=' :: value) :: after)
  /-- A part without a value. -/
  | bare {before after : List (List Char)} {part : List Char} (h : '=' ∉ part) :
      TextStep (before ++ after) (before ++ part :: after)

/-! ## Tokens -/

variable {token token' : List Char} {tokens tokens' parts parts' : List (List Char)}
  {code text text' : String} {c : Char} {cs cs' : List Char}

/-- The last two characters. -/
def lastTwo (cs : List Char) : List Char := cs.drop (cs.length - 2)

theorem codeOfToken_eq (token : List Char) :
    codeOfToken token = String.ofList (lastTwo ((trimBy isBlank token).flatMap upperChar)) := by
  rw [codeOfToken, codeOf, upper, trim, String.toList_ofList, String.toList_ofList,
    String.toList_ofList, lastTwo]

/-- A day code is two capital letters. -/
theorem dayCode_spec (h : (dayCodes.lookup code).isSome = true) :
    code.toList.length = 2 ∧ ∀ c ∈ code.toList, isCapital c = true := by
  have hcodes : dayCodes.all (fun entry =>
      entry.1.toList.length == 2 && entry.1.toList.all isCapital) = true := by
    decide +kernel
  obtain ⟨number, hnumber⟩ := Option.isSome_iff_exists.mp h
  obtain ⟨before, after, htable, -⟩ := List.lookup_eq_some_iff.mp hnumber
  have hmem : (code, number) ∈ dayCodes := by
    rw [htable]
    exact List.mem_append_right _ List.mem_cons_self
  have hcode := List.all_eq_true.mp hcodes _ hmem
  rwa [Bool.and_eq_true, beq_iff_eq, List.all_eq_true] at hcode

/-- What is not a capital letter in front of a text does not make it end in a day code. -/
theorem lastTwo_append {front : List Char} (hfront : ∀ c ∈ front, isCapital c = false)
    (h : (dayCodes.lookup code).isSome = true) (cs : List Char) :
    lastTwo (front ++ cs) = code.toList ↔ lastTwo cs = code.toList := by
  obtain ⟨hlength, hcapital⟩ := dayCode_spec h
  rcases Nat.lt_or_ge cs.length 2 with hshort | hlong
  · refine iff_of_false (fun heq => ?_) fun heq => ?_
    · -- the first of the two letters would stand in front
      have hdrop : lastTwo (front ++ cs) = front.drop (front.length + cs.length - 2) ++ cs := by
        rw [lastTwo, List.length_append, List.drop_append_of_le_length (by omega)]
      rw [hdrop] at heq
      have hne : front.drop (front.length + cs.length - 2) ≠ [] := by
        intro hnil
        rw [hnil, List.nil_append] at heq
        rw [← heq] at hlength
        omega
      obtain ⟨c, rest, hc⟩ := List.exists_cons_of_ne_nil hne
      have hmem : c ∈ front := List.mem_of_mem_drop (hc ▸ List.mem_cons_self)
      have hcode : c ∈ code.toList := by
        rw [← heq, hc]
        exact List.mem_cons_self
      have hsmall := hcapital c hcode
      rw [hfront c hmem] at hsmall
      cases hsmall
    · have hle : (lastTwo cs).length ≤ cs.length := by
        rw [lastTwo, List.length_drop]
        omega
      rw [heq, hlength] at hle
      omega
  · have hdrop : lastTwo (front ++ cs) = lastTwo cs := by
      rw [lastTwo, lastTwo, List.length_append, List.drop_append,
        List.drop_eq_nil_of_le (by omega), List.nil_append]
      congr 1
      omega
    rw [hdrop]

/-- A character that is its own capital form and no capital letter. -/
def IsPlain (c : Char) : Prop := upperChar c = [c] ∧ isCapital c = false

theorem isPlain_of_isBlank (h : isBlank c = true) : IsPlain c := by
  refine ⟨upperChar_of_isBlank h, ?_⟩
  by_contra hcapital
  simp only [isCapital, Bool.not_eq_false, Bool.and_eq_true, decide_eq_true_eq] at hcapital
  simp only [isBlank, Bool.or_eq_true, Bool.and_eq_true, decide_eq_true_eq, beq_iff_eq] at h
  omega

/-- The letters come behind the digits. -/
theorem isPlain_of_lt (h : c.toNat < 0x3A) : IsPlain c := by
  have hall : ∀ n < 0x3A,
      upperChar (Char.ofNat n) = [Char.ofNat n] ∧ isCapital (Char.ofNat n) = false := by
    decide +kernel
  have hplain := hall c.toNat h
  rwa [Char.ofNat_toNat] at hplain

theorem isPlain_of_mem_ordinal (h : IsOrdinal cs) (hc : c ∈ cs) : IsPlain c := by
  obtain ⟨sign, digits, rfl, hsign, hdigits⟩ := h
  refine isPlain_of_lt ?_
  rcases List.mem_append.mp hc with hc | hc
  · simp only [List.mem_cons, List.not_mem_nil, or_false] at hsign
    rcases hsign with rfl | rfl | rfl
    · cases hc
    · rw [List.mem_singleton.mp hc]
      decide
    · rw [List.mem_singleton.mp hc]
      decide
  · have hdigit := hdigits c hc
    simp only [Char.isDigit, Bool.and_eq_true, decide_eq_true_eq] at hdigit
    have hnine : c.toNat ≤ 0x39 := hdigit.2
    omega

theorem flatMap_of_isPlain (h : ∀ c ∈ cs, IsPlain c) : cs.flatMap upperChar = cs := by
  rw [List.flatMap_congr fun c hc => (h c hc).1, List.flatMap_singleton']

/-- What stands in front of the day code of a token with an ordinal are blanks, a sign and
    digits. -/
theorem exists_front {ordinal : List Char} (h : IsOrdinal ordinal) (token : List Char) :
    ∃ front, (∀ c ∈ front, IsPlain c) ∧
      trimBy isBlank (ordinal ++ token) = front ++ trimBy isBlank token := by
  cases hfirst : token.find? (!isBlank ·) with
  | none =>
    have hblank : ∀ c ∈ token, isBlank c = true := by
      simpa using List.find?_eq_none.mp hfirst
    have hnil : trimBy isBlank token = [] := by
      rw [trimBy, List.dropWhile_eq_nil_iff.mpr hblank]
      rfl
    rw [hnil]
    refine ⟨trimBy isBlank (ordinal ++ token), fun c hc => ?_, (List.append_nil _).symm⟩
    rcases List.mem_append.mp ((DateToken.trimBy_sublist isBlank _).subset hc) with hc | hc
    · exact isPlain_of_mem_ordinal h hc
    · exact isPlain_of_isBlank (hblank c hc)
  | some c =>
    obtain ⟨hc, lead, rest, rfl, hlead⟩ := List.find?_eq_some_iff_append.mp hfirst
    have hblank : ∀ c ∈ lead, isBlank c = true := by simpa using hlead
    have hstays : isBlank c = false := by simpa using hc
    rw [← List.append_assoc, trimBy_append_cons hstays, trimBy_append_cons hstays,
      List.dropWhile_eq_nil_iff.mpr hblank, List.nil_append]
    refine ⟨_, fun c hc => ?_, rfl⟩
    rcases List.mem_append.mp ((List.dropWhile_sublist _).subset hc) with hc | hc
    · exact isPlain_of_mem_ordinal h hc
    · exact isPlain_of_isBlank (hblank c hc)

/-- An ordinal in front of a token does not change its day code. -/
theorem codeOfToken_ordinal {ordinal : List Char} (h : IsOrdinal ordinal) (token : List Char)
    (hcode : (dayCodes.lookup code).isSome = true) :
    codeOfToken (ordinal ++ token) = code ↔ codeOfToken token = code := by
  obtain ⟨front, hfront, htrim⟩ := exists_front h token
  have hlist (cs : List Char) : String.ofList cs = code ↔ cs = code.toList := by
    rw [← String.toList_inj, String.toList_ofList]
  rw [codeOfToken_eq, codeOfToken_eq, htrim, List.flatMap_append, flatMap_of_isPlain hfront, hlist,
    hlist]
  exact lastTwo_append (fun c hc => (hfront c hc).2) hcode _

theorem codeOfToken_eq_of_sameLetters (h : SameLetters token token') :
    codeOfToken token = codeOfToken token' := by
  rw [codeOfToken, codeOfToken, trim, trim, String.toList_ofList, String.toList_ofList,
    h.trimBy.upper_eq]

theorem codeOfToken_cons_of_isBlank (token : List Char) (h : isBlank c = true) :
    codeOfToken (c :: token) = codeOfToken token := by
  rw [codeOfToken_eq, codeOfToken_eq, trimBy_cons_of_pos h]

theorem codeOfToken_concat_of_isBlank (token : List Char) (h : isBlank c = true) :
    codeOfToken (token ++ [c]) = codeOfToken token := by
  rw [codeOfToken_eq, codeOfToken_eq, trimBy_concat_of_pos h]

/-- Another way to write tokens has the same day codes. -/
theorem TokenStep.mem_map_iff (h : TokenStep tokens tokens')
    (hcode : (dayCodes.lookup code).isSome = true) :
    code ∈ tokens.map codeOfToken ↔ code ∈ tokens'.map codeOfToken := by
  cases h with
  | reorder h => exact (h.map codeOfToken).mem_iff
  | repeated h =>
    rw [List.map_cons, List.mem_cons]
    exact ⟨.inr, fun hmem => hmem.elim (fun heq => heq ▸ List.mem_map_of_mem h) id⟩
  | @ordinal before after token ordinal h =>
    simp only [List.map_append, List.map_cons, List.mem_append, List.mem_cons, eq_comm (a := code),
      codeOfToken_ordinal h token hcode]
  | blanks h => simp only [List.map_append, List.map_cons, codeOfToken_eq, h]

/-! ## Parts -/

/-- Values that say the same under a key. -/
structure SameValue (name value value' : String) : Prop where
  frequency : name = "freq" → upper value = upper value'
  days : name = "byday" → (dayList value).Perm (dayList value')
  other : name ≠ "freq" → name ≠ "byday" → value = value'

theorem SameValue.refl (name value : String) : SameValue name value value :=
  ⟨fun _ => rfl, fun _ => .refl _, fun _ _ => rfl⟩

/-- The day codes of a value are those of its tokens. -/
theorem map_codeOfToken_trim (value : List Char) :
    (splitAt ',' (trim (String.ofList value)).toList).map codeOfToken =
      (splitAt ',' value).map codeOfToken := by
  rw [trim, String.toList_ofList, String.toList_ofList]
  exact map_splitAt_trimBy (by decide) (fun _ token hc => codeOfToken_cons_of_isBlank token hc)
    (fun _ token hc => codeOfToken_concat_of_isBlank token hc) value

/-- The day codes of tokens with commas between them are those of the tokens. -/
theorem mem_map_codeOfToken_intercalate (hcomma : ∀ token ∈ tokens, ',' ∉ token)
    (hcode : (dayCodes.lookup code).isSome = true) :
    code ∈ (splitAt ',' ([','].intercalate tokens)).map codeOfToken ↔
      code ∈ tokens.map codeOfToken := by
  by_cases hne : tokens = []
  · subst hne
    have hempty : code ≠ codeOfToken [] := by
      rintro rfl
      exact absurd hcode (by decide +kernel)
    simpa [splitAt] using hempty
  · rw [splitAt_intercalate hcomma hne]

theorem map_codeOfToken_eq_of_sameLetters {value value' : List Char}
    (h : SameLetters value value') :
    (splitAt ',' value).map codeOfToken = (splitAt ',' value').map codeOfToken := by
  have hcomma (c c' : Char) (hc : SameLetter c c') : c = ',' ↔ c' = ',' := by
    have hsame : (c == ',') = (c' == ',') :=
      hc.congr (f := fun c => c == ',') (by decide +kernel)
    rw [← beq_iff_eq, hsame, beq_iff_eq]
  have htokens := splitAt_forall₂ hcomma h
  generalize splitAt ',' value = tokens at htokens ⊢
  generalize splitAt ',' value' = tokens' at htokens ⊢
  induction htokens with
  | nil => rfl
  | cons htoken _ ih =>
    rw [List.map_cons, List.map_cons, codeOfToken_eq_of_sameLetters htoken, ih]

/-- Another way to write a part has the same key and says the same under it. -/
theorem PartStep.exists_sameValue {part part' : List Char} (h : PartStep part part') :
    ∃ name value value', pair? part = some (name, value) ∧ pair? part' = some (name, value') ∧
      SameValue name value value' := by
  cases h with
  | @key key key' value hkey hkey' h =>
    have hname : keyOf key = keyOf key' := by
      rw [keyOf, keyOf, trim, trim, String.toList_ofList, String.toList_ofList, h.lower_eq]
    exact ⟨_, _, _, pair?_append hkey value, by rw [pair?_append hkey', hname], .refl _ _⟩
  | @blanks key value value' hkey h =>
    have hvalue : trim (String.ofList value) = trim (String.ofList value') := by
      rw [trim, trim, String.toList_ofList, String.toList_ofList, h]
    exact ⟨_, _, _, pair?_append hkey value, by rw [pair?_append hkey, hvalue], .refl _ _⟩
  | @letters key value value' hkey hname h =>
    refine ⟨_, _, _, pair?_append hkey value, pair?_append hkey value', ?_, ?_, ?_⟩
    · intro _
      rw [trim, trim, String.toList_ofList, String.toList_ofList, h.trimBy.upper_eq]
    · intro _
      refine dayList_perm fun code _ => ?_
      rw [map_codeOfToken_trim, map_codeOfToken_trim, map_codeOfToken_eq_of_sameLetters h]
    · intro hfreq hbyday
      exact absurd hname (not_or.mpr ⟨hfreq, hbyday⟩)
  | @days key tokens tokens' hkey hname hcomma hcomma' h =>
    refine ⟨_, _, _, pair?_append hkey _, pair?_append hkey _, ?_, ?_, ?_⟩
    · intro hfreq
      rw [hname] at hfreq
      exact absurd hfreq (by decide)
    · intro _
      refine dayList_perm fun code hcode => ?_
      rw [map_codeOfToken_trim, map_codeOfToken_trim,
        mem_map_codeOfToken_intercalate hcomma hcode,
        mem_map_codeOfToken_intercalate hcomma' hcode]
      exact h.mem_map_iff hcode
    · intro _ hbyday
      exact absurd hname hbyday

/-! ## One step -/

/-- What is looked up after a value is replaced: the same, or the new value for the old one. -/
theorem lookup_replace {R : Option String → Option String → Prop} {name value value' looked : String}
    (hrefl : ∀ v, R v v) (h : name = looked → R (some value) (some value'))
    (before after : List (String × String)) :
    R ((before ++ (name, value) :: after).lookup looked)
      ((before ++ (name, value') :: after).lookup looked) := by
  rw [List.lookup_append, List.lookup_append, lookup_cons, lookup_cons]
  cases before.lookup looked with
  | some v => exact hrefl (some v)
  | none =>
    rw [Option.none_or, Option.none_or]
    by_cases hname : looked = name
    · rw [if_pos hname, if_pos hname]
      exact h hname.symm
    · rw [if_neg hname, if_neg hname]
      exact hrefl _

/-- A pair may be replaced by one that says the same. -/
theorem sameMeaning_replace {name value value' : String} (h : SameValue name value value')
    (before after : List (String × String)) :
    SameMeaning (before ++ (name, value) :: after) (before ++ (name, value') :: after) where
  frequency :=
    lookup_replace (R := fun v v' => v.map upper = v'.map upper) (fun _ => rfl)
      (fun hname => congrArg some (h.frequency hname)) before after
  interval :=
    lookup_replace (R := Eq) (fun _ => rfl)
      (fun hname => congrArg some (h.other (by rw [hname]; decide) (by rw [hname]; decide)))
      before after
  days :=
    lookup_replace (R := fun v v' => ((v.map dayList).getD []).Perm ((v'.map dayList).getD []))
      (fun _ => .refl _) h.days before after
  ending :=
    lookup_replace (R := Eq) (fun _ => rfl)
      (fun hname => congrArg some (h.other (by rw [hname]; decide) (by rw [hname]; decide)))
      before after

/-- Pairs say the same if the same is looked up under the keys that count. -/
theorem sameMeaning_of_lookup {l l' : List (String × String)}
    (h : ∀ name ∈ countedKeys, l.lookup name = l'.lookup name) : SameMeaning l l' := by
  constructor <;> rw [h _ (by decide)]

/-- A pair with a key that does not count may be put in. -/
theorem sameMeaning_insert {name : String} (h : name ∉ countedKeys) (value : String)
    (before after : List (String × String)) :
    SameMeaning (before ++ after) (before ++ (name, value) :: after) := by
  refine sameMeaning_of_lookup fun name' hname => ?_
  have hne : name' ≠ name := by
    rintro rfl
    exact h hname
  rw [List.lookup_append, List.lookup_append, lookup_cons, if_neg hne]

theorem saysOnce_insert {name : String} (h : name ∉ countedKeys) (value : String)
    {before after : List (String × String)} (honce : SaysOnce (before ++ after)) :
    SaysOnce (before ++ (name, value) :: after) := by
  intro name' hname
  have hne : name ≠ name' := by
    rintro rfl
    exact h hname
  have hcount := honce name' hname
  simp only [List.map_append, List.map_cons, List.count_append,
    List.count_cons_of_ne hne] at hcount ⊢
  exact hcount

/-- Pairs in another order say the same, if no key that counts stands twice. -/
theorem sameMeaning_of_perm {l l' : List (String × String)} (h : l.Perm l') (honce : SaysOnce l) :
    SameMeaning l l' :=
  sameMeaning_of_lookup fun name hname => lookup_perm h (honce name hname)

theorem saysOnce_of_perm {l l' : List (String × String)} (h : l.Perm l') (honce : SaysOnce l) :
    SaysOnce l' := by
  intro name hname
  rw [← (h.map Prod.fst).count_eq]
  exact honce name hname

/-- Each step keeps that no key that counts stands twice, and what the pairs say. -/
theorem TextStep.sameMeaning (h : TextStep parts parts')
    (honce : SaysOnce (parts.filterMap pair?)) :
    SaysOnce (parts'.filterMap pair?) ∧
      SameMeaning (parts.filterMap pair?) (parts'.filterMap pair?) := by
  cases h with
  | reorder h =>
    have hpairs := h.filterMap pair?
    exact ⟨saysOnce_of_perm hpairs honce, sameMeaning_of_perm hpairs honce⟩
  | @change before after part part' h =>
    obtain ⟨name, value, value', hpair, hpair', hvalue⟩ := h.exists_sameValue
    simp only [List.filterMap_append, List.filterMap_cons, hpair, hpair'] at honce ⊢
    refine ⟨?_, sameMeaning_replace hvalue _ _⟩
    unfold SaysOnce at honce ⊢
    rwa [List.map_append, List.map_cons] at honce ⊢
  | @unknown before after key value hkey h =>
    simp only [List.filterMap_append, List.filterMap_cons, pair?_append hkey value] at honce ⊢
    exact ⟨saysOnce_insert h _ honce, sameMeaning_insert h _ _ _⟩
  | @bare before after part h =>
    simp only [List.filterMap_append, List.filterMap_cons, pair?_of_not_mem h] at honce ⊢
    exact ⟨honce, .refl _⟩

/-- A whole rewriting keeps what the pairs say. -/
theorem sameMeaning_of_reflTransGen (h : Relation.ReflTransGen TextStep parts parts')
    (honce : SaysOnce (parts.filterMap pair?)) :
    SaysOnce (parts'.filterMap pair?) ∧
      SameMeaning (parts.filterMap pair?) (parts'.filterMap pair?) := by
  induction h with
  | refl => exact ⟨honce, .refl _⟩
  | tail _ hstep ih =>
    obtain ⟨honce', hsame⟩ := ih
    obtain ⟨honce'', hsame'⟩ := hstep.sameMeaning honce'
    exact ⟨honce'', hsame.trans hsame'⟩

/-! ## Texts -/

/-- The name of the property, in letters of whatever case and perhaps behind blanks. -/
def IsLabel (cs : List Char) : Prop :=
  ∃ blanks name, cs = blanks ++ name ∧ (∀ c ∈ blanks, isBlank c = true) ∧
    SameLetters name "RRULE:".toList

/-- A text begins with the name of the property, in letters of whatever case. -/
def isLabelled (cs : List Char) : Bool :=
  "RRULE:".toList.isPrefixOf (upper (String.ofList cs)).toList

/-- A text that is put together from parts with semicolons between them, perhaps behind the name
    of the property, with which no part begins. -/
structure Spells (text : String) (parts : List (List Char)) : Prop where
  spelling : ∃ label, (label = [] ∨ IsLabel label) ∧
    text.toList = label ++ [';'].intercalate parts
  unbroken : ∀ part ∈ parts, ';' ∉ part
  unlabelled : ∀ part ∈ parts, isLabelled (trimBy isBlank part) = false

theorem isLabelled_eq (cs : List Char) :
    isLabelled cs = "RRULE:".toList.isPrefixOf (cs.flatMap upperChar) := by
  rw [isLabelled, upper, String.toList_ofList (l := cs),
    String.toList_ofList (l := cs.flatMap upperChar)]

theorem body_eq (text : String) :
    body text = let bare := trimBy isBlank text.toList
      if isLabelled bare = true then bare.drop 6 else bare := by
  rw [body, trim]
  simp only [isLabelled, String.toList_ofList (l := trimBy isBlank text.toList)]
  rfl

/-- The name of the property ends before a character that is not in it. -/
theorem isLabelled_append_cons (hupper : upperChar c = [c]) (hc : c ∉ "RRULE:".toList)
    (cs rest : List Char) : isLabelled (cs ++ c :: rest) = isLabelled cs := by
  rw [isLabelled_eq, isLabelled_eq, List.flatMap_append, List.flatMap_cons, hupper,
    List.singleton_append, Bool.eq_iff_iff, List.isPrefixOf_iff_prefix, List.isPrefixOf_iff_prefix]
  generalize "RRULE:".toList = name at hc ⊢
  generalize cs.flatMap upperChar = front
  generalize rest.flatMap upperChar = behind
  refine ⟨fun h => ?_, fun h => h.trans (List.prefix_append _ _)⟩
  rcases Nat.lt_or_ge front.length name.length with hlt | hle
  · have hwhole : front ++ [c] <+: front ++ c :: behind := ⟨behind, by simp⟩
    have hlonger : front ++ [c] <+: name := by
      refine List.prefix_of_prefix_length_le hwhole h ?_
      rw [List.length_append, List.length_singleton]
      exact hlt
    exact absurd (hlonger.subset (by simp)) hc
  · exact List.prefix_of_prefix_length_le h (List.prefix_append _ _) hle

/-- A trimmed text begins with the name of the property only if its first part does. -/
theorem isLabelled_intercalate
    (h : ∀ part ∈ parts, isLabelled (trimBy isBlank part) = false) :
    isLabelled (trimBy isBlank ([';'].intercalate parts)) = false := by
  cases parts with
  | nil => decide +kernel
  | cons part parts =>
    have hpart := h part List.mem_cons_self
    cases parts with
    | nil => simpa using hpart
    | cons part' parts =>
      rw [List.intercalate_cons_cons, List.append_assoc, List.singleton_append,
        trimBy_append_cons (by decide)]
      -- behind the first part, without the blanks around it, stands a blank or the semicolon
      rw [← List.rdropWhile_append_rtakeWhile (p := isBlank) (l := part.dropWhile isBlank),
        ← trimBy_eq_rdropWhile, List.append_assoc]
      cases htrail : (part.dropWhile isBlank).rtakeWhile isBlank with
      | nil =>
        rw [List.nil_append, isLabelled_append_cons (by decide +kernel) (by decide), hpart]
      | cons b trail =>
        have hblank : isBlank b = true :=
          List.mem_rtakeWhile_imp (htrail ▸ List.mem_cons_self)
        have hname : b ∉ "RRULE:".toList := by
          intro hmem
          have hletters : "RRULE:".toList.all (!isBlank ·) = true := by decide +kernel
          have hletter := List.all_eq_true.mp hletters b hmem
          rw [hblank] at hletter
          cases hletter
        rw [List.cons_append, isLabelled_append_cons (upperChar_of_isBlank hblank) hname, hpart]

/-- A label consists of blanks and the six characters of the name. -/
theorem trimBy_label {label : List Char} (h : IsLabel label) (cs : List Char) :
    ∃ name, trimBy isBlank (label ++ cs) = name ++ cs.rdropWhile isBlank ∧ name.length = 6 ∧
      isLabelled name = true := by
  obtain ⟨blanks, name, rfl, hblanks, hname⟩ := h
  have hlabelled : isLabelled name = true := by
    rw [isLabelled, hname.upper_eq]
    decide +kernel
  -- the first and the last character of the name stop the trimming
  have hchars : SameLetters name ['R', 'R', 'U', 'L', 'E', ':'] := hname
  simp only [SameLetters, List.forall₂_cons_right_iff, List.forall₂_nil_right_iff] at hchars
  obtain ⟨r, _, hr, ⟨r', _, -, ⟨u, _, -, ⟨l, _, -, ⟨e, _, -, ⟨colon, _, hcolon, rfl, rfl⟩, rfl⟩,
    rfl⟩, rfl⟩, rfl⟩, rfl⟩ := hchars
  have hfirst : isBlank r = false := hr.isBlank_eq
  have hlast : isBlank colon = false := hcolon.isBlank_eq
  refine ⟨[r, r', u, l, e, colon], ?_, rfl, hlabelled⟩
  have hshape : blanks ++ [r, r', u, l, e, colon] ++ cs =
      (blanks ++ [r, r', u, l, e]) ++ colon :: cs := by simp
  rw [hshape, trimBy_append_cons hlast, List.dropWhile_append_of_pos hblanks,
    List.dropWhile_cons_of_neg (by rw [hfirst]; decide)]
  rfl

/-- The pairs of a text are those of its parts. -/
theorem pairs_of_spells (h : Spells text parts) : pairs text = parts.filterMap pair? := by
  obtain ⟨⟨label, hlabel, htext⟩, hunbroken, hunlabelled⟩ := h
  have hsplit : (splitAt ';' ([';'].intercalate parts)).filterMap pair? =
      parts.filterMap pair? := by
    by_cases hne : parts = []
    · rw [hne]
      rfl
    · rw [splitAt_intercalate hunbroken hne]
  have hfilter (l : List (List Char)) : l.filterMap pair? = (l.map pair?).filterMap id := by
    rw [List.filterMap_map, Function.id_comp]
  rw [← hsplit, pairs, hfilter, hfilter]
  rcases hlabel with rfl | hlabel
  · have hbody : body text = trimBy isBlank ([';'].intercalate parts) := by
      rw [body_eq, htext, List.nil_append]
      dsimp only
      rw [isLabelled_intercalate hunlabelled, if_neg Bool.false_ne_true]
    rw [hbody, map_splitAt_trimBy (by decide) (fun _ part hc => pair?_cons_of_isBlank part hc)
      (fun _ part hc => pair?_concat_of_isBlank part hc)]
  · obtain ⟨name, htrim, hlength, hname⟩ := trimBy_label hlabel ([';'].intercalate parts)
    have hbody : body text = ([';'].intercalate parts).rdropWhile isBlank := by
      have hlabelled : isLabelled (name ++ ([';'].intercalate parts).rdropWhile isBlank) = true := by
        rw [isLabelled_eq, List.isPrefixOf_iff_prefix] at hname ⊢
        rw [List.flatMap_append]
        exact hname.trans (List.prefix_append _ _)
      rw [body_eq, htext, htrim]
      dsimp only
      rw [hlabelled, if_pos rfl, List.drop_left' hlength]
    rw [hbody, map_splitAt_rdropWhile (by decide) (fun _ part hc => pair?_concat_of_isBlank part hc)]

end RecurrenceRule

namespace Interpreter

open RecurrenceRule

/-- A record has the same dates, or the same error, with another text for the same rule. -/
theorem interpret_congr_rule (i : Interpreter) (r : RawRecord) {text text' : String}
    {parts parts' : List (List Char)} (h : Spells text parts) (h' : Spells text' parts')
    (hkeys : ((parts.filterMap pair?).map Prod.fst).Nodup)
    (hrun : Relation.ReflTransGen TextStep parts parts') :
    (i.interpret { r with rule := some text }).outcome =
      (i.interpret { r with rule := some text' }).outcome := by
  have honce : SaysOnce (parts.filterMap pair?) := fun name _ =>
    List.nodup_iff_count.mp hkeys name
  obtain ⟨honce', hsame⟩ := sameMeaning_of_reflTransGen hrun honce
  have hrecurrence : i.recurrenceOf (some text) = i.recurrenceOf (some text') := by
    rw [recurrenceOf_some, recurrenceOf_some, pairs_of_spells h, pairs_of_spells h']
    exact i.recurrenceOfPairs_congr honce honce' hsame
  have hreadings : i.readings { r with rule := some text } =
      i.readings { r with rule := some text' } := by
    unfold readings
    dsimp only
    rw [hrecurrence]
  rw [outcome_interpret, outcome_interpret, hreadings]

/-- Every second Monday, with another order, other letters, an ordinal, a part without a value and
    the name of the property. -/
theorem interpret_congr_rule_mondays :
    let i : Interpreter := ⟨.withZone none, defaultHorizon⟩
    let record (rule : String) : RawRecord :=
      ⟨some "20240101T090000Z", some "20240101T100000Z", some rule, none, none⟩
    let rule := "FREQ=WEEKLY;INTERVAL=2;BYDAY=MO"
    let rule' := " rrule:X-NOTE;byday = 1mo;INTERVAL=2;FREQ=weekly"
    ∃ dates, (i.interpret (record rule)).outcome = .ok dates ∧
      (i.interpret (record rule')).outcome = .ok dates ∧ dates.frequency = "biweekly" := by
  intro i record rule rule'
  have hspells : Spells rule ["FREQ=WEEKLY".toList, "INTERVAL=2".toList, "BYDAY=MO".toList] :=
    ⟨⟨[], .inl rfl, by decide +kernel⟩, by decide +kernel, by decide +kernel⟩
  have hspells' : Spells rule' ["X-NOTE".toList, "byday = 1mo".toList, "INTERVAL=2".toList,
      "FREQ=weekly".toList] :=
    ⟨⟨" rrule:".toList, .inr ⟨[' '], "rrule:".toList, by decide +kernel,
      List.forall_mem_singleton.mpr (by decide), by decide +kernel⟩, by decide +kernel⟩,
      by decide +kernel, by decide +kernel⟩
  have hrun : Relation.ReflTransGen TextStep
      ["FREQ=WEEKLY".toList, "INTERVAL=2".toList, "BYDAY=MO".toList]
      ["X-NOTE".toList, "byday = 1mo".toList, "INTERVAL=2".toList, "FREQ=weekly".toList] := by
    have hletters : PartStep "FREQ=WEEKLY".toList "FREQ=weekly".toList :=
      @PartStep.letters "FREQ".toList "WEEKLY".toList "weekly".toList
        (by decide +kernel) (by decide +kernel) (by decide +kernel)
    have hkey : PartStep "BYDAY=MO".toList "byday =MO".toList :=
      @PartStep.key "BYDAY".toList "byday ".toList "MO".toList
        (by decide +kernel) (by decide +kernel) (by decide +kernel)
    have hday : PartStep "byday =MO".toList "byday =mo".toList :=
      @PartStep.letters "byday ".toList "MO".toList "mo".toList
        (by decide +kernel) (by decide +kernel) (by decide +kernel)
    have hone : IsOrdinal "1".toList :=
      ⟨[], ['1'], by decide +kernel, by decide, List.forall_mem_singleton.mpr (by decide)⟩
    have hordinal : PartStep "byday =mo".toList "byday =1mo".toList :=
      @PartStep.days "byday ".toList ["mo".toList] ["1mo".toList]
        (by decide +kernel) (by decide +kernel) (by decide +kernel) (by decide +kernel)
        (@TokenStep.ordinal [] [] "mo".toList "1".toList hone)
    have hblank : PartStep "byday =1mo".toList "byday = 1mo".toList :=
      @PartStep.blanks "byday ".toList "1mo".toList " 1mo".toList (by decide +kernel)
        (by decide +kernel)
    have hfirst {part part' : List Char} (h : PartStep part part') :
        TextStep [part, "INTERVAL=2".toList, "BYDAY=MO".toList]
          [part', "INTERVAL=2".toList, "BYDAY=MO".toList] := @TextStep.change [] _ _ _ h
    have hlast {part part' : List Char} (h : PartStep part part') :
        TextStep ["FREQ=weekly".toList, "INTERVAL=2".toList, part]
          ["FREQ=weekly".toList, "INTERVAL=2".toList, part'] := @TextStep.change [_, _] _ _ _ h
    refine ((((((Relation.ReflTransGen.single (hfirst hletters)).tail (hlast hkey)).tail
      (hlast hday)).tail (hlast hordinal)).tail (hlast hblank)).tail
      (TextStep.reorder (List.reverse_perm _).symm)).tail ?_
    exact @TextStep.bare [] _ "X-NOTE".toList (by decide +kernel)
  have hok : (i.interpret (record rule)).outcome.toOption.map (·.frequency) = some "biweekly" := by
    decide +kernel
  obtain ⟨dates, hdates, hfrequency⟩ := Option.map_eq_some_iff.mp hok
  have h := toOption_eq_some_iff.mp hdates
  have hsame := i.interpret_congr_rule (record rule) hspells hspells' (by decide +kernel) hrun
  exact ⟨dates, h, hsame.symm.trans h, hfrequency⟩

end Interpreter

end EventCalendar
