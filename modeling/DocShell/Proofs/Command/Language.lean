import DocShell.Command.Basic
import DocShell.Proofs.Arguments.Literals
import DocShell.Proofs.Command.Shape

set_option autoImplicit false

/-! # The language of commands

What a text has to be for a command to be read from it, without a word on how it is cut into
arguments: the names, and in the parentheses nothing, one literal, or two literals with a comma
between them, as the method wants it (`Takes`). An argument list is cut at the one comma between
two literals since literals are balanced, and each argument is read as it would be with the
white space around it.
-/

namespace DocShell

open Text (isBlank)

/-! ## Methods -/

theorem Method.ofName?_name (m : Method) : ofName? m.name = some m := by
  cases m <;> decide

theorem Method.ofName?_eq_some_iff {name : String} {m : Method} :
    ofName? name = some m ↔ m.name = name := by
  constructor
  · intro h
    simpa using List.find?_some h
  · rintro rfl
    exact ofName?_name m

theorem Method.ofName_eq_ok_iff {name : String} {m : Method} :
    ofName name = .ok m ↔ m.name = name := by
  rw [← ofName?_eq_some_iff, ofName]
  cases ofName? name <;> simp

/-- A method has one optional argument, or it has two. -/
theorem Method.rule_cases (m : Method) :
    (m.rule.requiresSecond = false ∧ m.rule.least = 0 ∧ m.rule.most = 1) ∨
      (m.rule.requiresSecond = true ∧ m.rule.least = 2 ∧ m.rule.most = 2) := by
  cases m <;> decide

namespace Call

variable {name : String} {arguments : List Fragment} {call : Call} {m : Method}

theorem check_of_optional (hname : Method.ofName name = .ok m)
    (hm : m.rule.requiresSecond = false) :
    check name arguments = .ok call ↔ arguments.length ≤ 1 ∧ call = ⟨m, arguments[0]?, none⟩ := by
  obtain ⟨-, hleast, hmost⟩ | ⟨hm', -⟩ := m.rule_cases
  · unfold check
    rw [hname]
    simp only [bind, Except.bind, hm, hleast, hmost, Bool.false_eq_true, false_and, if_false,
      Nat.not_lt_zero, pure, Except.pure]
    -- What is one too many is found at the place after the last argument.
    cases hextra : arguments[1]? with
    | none =>
        have hlength : arguments.length ≤ 1 := List.getElem?_eq_none_iff.mp hextra
        simp [hlength, eq_comm]
    | some extra =>
        obtain ⟨hlength, -⟩ := List.getElem?_eq_some_iff.mp hextra
        simp [throw, throwThe, MonadExceptOf.throw, hlength]
  · rw [hm] at hm'
    contradiction

theorem check_of_binary (hname : Method.ofName name = .ok m)
    (hm : m.rule.requiresSecond = true) :
    check name arguments = .ok call ↔
      arguments.length = 2 ∧ call = ⟨m, arguments[0]?, arguments[1]?⟩ := by
  obtain ⟨hm', -⟩ | ⟨-, hleast, hmost⟩ := m.rule_cases
  · rw [hm] at hm'
    contradiction
  · unfold check
    rw [hname]
    simp only [bind, Except.bind, hm, hleast, hmost, true_and, if_true, pure, Except.pure]
    by_cases hfew : arguments.length < 2
    · have hne : arguments.length ≠ 2 := Nat.ne_of_lt hfew
      simp [hfew, hne, throw, throwThe, MonadExceptOf.throw]
    · simp only [if_neg hfew]
      cases hextra : arguments[2]? with
      | none =>
          have hlength : arguments.length = 2 := by
            have := List.getElem?_eq_none_iff.mp hextra
            omega
          simp [hlength, eq_comm]
      | some extra =>
          obtain ⟨hlength, -⟩ := List.getElem?_eq_some_iff.mp hextra
          have hne : arguments.length ≠ 2 := by omega
          simp [throw, throwThe, MonadExceptOf.throw, hne]

/-- A call is one of a known method. -/
theorem ofName_of_check (h : check name arguments = .ok call) :
    ∃ m, Method.ofName name = .ok m := by
  obtain ⟨m, hname, -⟩ := Except.bind_eq_ok_iff.mp h
  exact ⟨m, hname⟩

end Call

namespace Command

/-- The texts of the arguments fit the method, and are literals for the values. -/
inductive Fits (m : Method) : List String → Value → Option Value → Prop
  | omitted (hm : m.rule.requiresSecond = false) : Fits m [] .empty none
  | one {t : String} {v : Value} (hm : m.rule.requiresSecond = false)
      (hv : Literal.parse t = .ok v) : Fits m [t] v none
  | two {t u : String} {v w : Value} (hm : m.rule.requiresSecond = true)
      (hv : Literal.parse t = .ok v) (hw : Literal.parse u = .ok w) : Fits m [t, u] v (some w)

theorem argument_eq_ok_iff {f : Fragment} {v : Value} :
    argument f = .ok v ↔ Literal.parse f.text = .ok v := by
  unfold argument
  cases Literal.parse f.text <;> simp

theorem argument?_some_iff {f : Fragment} {o : Option Value} :
    argument? (some f) = .ok o ↔ ∃ v, Literal.parse f.text = .ok v ∧ some v = o := by
  simp only [argument?, Except.map_eq_ok_iff, argument_eq_ok_iff]

theorem ofCall_eq_ok_iff {raw collection : String} {call : Call} {c : Command} :
    ofCall raw collection call = .ok c ↔
      ∃ p, argument? call.primary = .ok p ∧ ∃ s, argument? call.secondary = .ok s ∧
        ⟨raw, collection, call.method, p.getD .empty, s⟩ = c := by
  simp only [ofCall, Except.bind_eq_ok_iff, Except.pure_eq_ok_iff]

/-- A call becomes a command if its arguments fit its method. -/
theorem check_bind_ofCall_iff {raw collection name : String} {arguments : List Fragment}
    {c : Command} :
    (Call.check name arguments >>= ofCall raw collection) = .ok c ↔
      c.raw = raw ∧ c.collection = collection ∧ c.method.name = name ∧
        Fits c.method (arguments.map Fragment.text) c.primary c.secondary := by
  rw [Except.bind_eq_ok_iff]
  constructor
  · rintro ⟨call, hcheck, hcall⟩
    obtain ⟨p, hp, s, hs, rfl⟩ := ofCall_eq_ok_iff.mp hcall
    obtain ⟨m, hname⟩ := Call.ofName_of_check hcheck
    have hmethod := Method.ofName_eq_ok_iff.mp hname
    cases hm : m.rule.requiresSecond with
    | false =>
        obtain ⟨hlength, rfl⟩ := (Call.check_of_optional hname hm).mp hcheck
        rcases arguments with _ | ⟨f, _ | ⟨g, more⟩⟩
        · obtain rfl := Except.ok.inj hp
          obtain rfl := Except.ok.inj hs
          exact ⟨rfl, rfl, hmethod, .omitted hm⟩
        · obtain ⟨v, hv, rfl⟩ := argument?_some_iff.mp hp
          obtain rfl := Except.ok.inj hs
          exact ⟨rfl, rfl, hmethod, .one hm hv⟩
        · simp at hlength
    | true =>
        obtain ⟨hlength, rfl⟩ := (Call.check_of_binary hname hm).mp hcheck
        obtain ⟨f, g, rfl⟩ := List.length_eq_two.mp hlength
        obtain ⟨v, hv, rfl⟩ := argument?_some_iff.mp hp
        obtain ⟨w, hw, rfl⟩ := argument?_some_iff.mp hs
        exact ⟨rfl, rfl, hmethod, .two hm hv hw⟩
  · obtain ⟨raw', collection', m, primary, secondary⟩ := c
    rintro ⟨rfl, rfl, rfl, hfits⟩
    have hname : Method.ofName m.name = .ok m := Method.ofName_eq_ok_iff.mpr rfl
    dsimp only at hfits ⊢
    -- `Fits` speaks of the texts only, so the cases are those of the texts.
    generalize htexts : arguments.map Fragment.text = texts at hfits
    cases hfits with
    | omitted hm =>
        obtain rfl := List.map_eq_nil_iff.mp htexts
        refine ⟨⟨m, none, none⟩, (Call.check_of_optional hname hm).mpr ⟨Nat.zero_le 1, rfl⟩, ?_⟩
        exact ofCall_eq_ok_iff.mpr ⟨none, rfl, none, rfl, rfl⟩
    | one hm hv =>
        obtain ⟨f, rfl, rfl⟩ := List.map_eq_singleton_iff.mp htexts
        refine ⟨⟨m, some f, none⟩, (Call.check_of_optional hname hm).mpr ⟨le_rfl, rfl⟩, ?_⟩
        have hp := argument?_some_iff.mpr ⟨_, hv, rfl⟩
        exact ofCall_eq_ok_iff.mpr ⟨_, hp, none, rfl, rfl⟩
    | two hm hv hw =>
        obtain ⟨f, more, rfl, rfl, hmore⟩ := List.map_eq_cons_iff.mp htexts
        obtain ⟨g, rfl, rfl⟩ := List.map_eq_singleton_iff.mp hmore
        refine ⟨⟨m, some f, some g⟩, (Call.check_of_binary hname hm).mpr ⟨rfl, rfl⟩, ?_⟩
        have hp := argument?_some_iff.mpr ⟨_, hv, rfl⟩
        have hs := argument?_some_iff.mpr ⟨_, hw, rfl⟩
        exact ofCall_eq_ok_iff.mpr ⟨_, hp, _, hs, rfl⟩

/-! ## The text in the parentheses -/

/-- The text is not blank, and is parsed as the value. -/
def IsArgument (t : List Char) (v : Value) : Prop :=
  isBlank t = false ∧ Literal.parse (String.ofList t) = .ok v

/-- What may stand in the parentheses of a call of a method, and the arguments it stands for. -/
inductive Takes (m : Method) : List Char → Value → Option Value → Prop
  | omitted {t : List Char} (hm : m.rule.requiresSecond = false) (ht : isBlank t = true) :
      Takes m t .empty none
  | one {t : List Char} {v : Value} (hm : m.rule.requiresSecond = false) (hv : IsArgument t v) :
      Takes m t v none
  | two {t u : List Char} {v w : Value} (hm : m.rule.requiresSecond = true)
      (hv : IsArgument t v) (hw : IsArgument u w) : Takes m (t ++ ',' :: u) v (some w)

theorem isArgument_iff {t : List Char} {v : Value} : IsArgument t v ↔ Literal.Derives t v := by
  constructor
  · rintro ⟨ht, hv⟩
    exact (Literal.parse_ofList_iff ht).mp hv
  · intro h
    exact ⟨h.not_blank, (Literal.parse_ofList_iff h.not_blank).mpr h⟩

/-- Trimming an argument does not change its value. -/
theorem parse_trim_iff {t : List Char} {v : Value} (ht : isBlank t = false) :
    Literal.parse (String.ofList (Text.trim t)) = .ok v ↔ IsArgument t v := by
  rw [Literal.parse_trim_eq_ok_iff ht, IsArgument]
  simp [ht]

/-- An argument is balanced, with the white space around it. -/
theorem IsArgument.balanced {t : List Char} {v : Value} (h : IsArgument t v) :
    Arguments.Balanced false t :=
  (isArgument_iff.mp h).balanced

theorem map_text_tile (start : Nat) (segments : List (List Char)) :
    (Arguments.tile start segments).map Fragment.text =
      segments.map fun t => String.ofList (Text.trim t) := by
  induction segments generalizing start with
  | nil => rfl
  | cons t segments ih => rw [Arguments.tile, List.map_cons, ih, List.map_cons]; rfl

/-- The arguments that are cut out are those that the method takes. -/
theorem takes_iff {m : Method} {cs : List Char} {v : Value} {w : Option Value} :
    Takes m cs v w ↔ ∃ fragments, Arguments.split cs = .ok fragments ∧
      Fits m (fragments.map Fragment.text) v w := by
  constructor
  · intro h
    cases h with
    | omitted hm ht => exact ⟨[], Arguments.split_of_blank ht, .omitted hm⟩
    | one hm hv =>
        have hsplit := Arguments.split_intercalate (List.cons_ne_nil cs [])
          (by simpa using hv.balanced) (by simpa using hv.1)
        rw [List.intercalate_singleton] at hsplit
        refine ⟨_, hsplit, ?_⟩
        rw [map_text_tile]
        exact .one hm ((parse_trim_iff hv.1).mpr hv)
    | @two t u v w hm hv hw =>
        -- Both literals are balanced, so the list is cut between them and nowhere else.
        have hsplit := Arguments.split_intercalate (List.cons_ne_nil t [u])
          (by simpa using ⟨hv.balanced, hw.balanced⟩) (by simpa using ⟨hv.1, hw.1⟩)
        rw [Text.intercalate_cons (by simp), List.intercalate_singleton] at hsplit
        refine ⟨_, hsplit, ?_⟩
        rw [map_text_tile]
        exact .two hm ((parse_trim_iff hv.1).mpr hv) ((parse_trim_iff hw.1).mpr hw)
  · rintro ⟨fragments, hsplit, hfits⟩
    rcases Arguments.exists_segments_of_split hsplit with
      ⟨hblank, rfl⟩ | ⟨segments, hne, rfl, -, hblank, rfl⟩
    · cases hfits with
      | omitted hm => exact .omitted hm hblank
    · rw [map_text_tile] at hfits
      rcases segments with _ | ⟨t, _ | ⟨u, _ | ⟨extra, segments⟩⟩⟩
      · contradiction
      · have ht := hblank t (by simp)
        rw [List.intercalate_singleton]
        cases hfits with
        | one hm hv => exact .one hm ((parse_trim_iff ht).mp hv)
      · have ht := hblank t (by simp)
        have hu := hblank u (by simp)
        rw [Text.intercalate_cons (by simp), List.intercalate_singleton]
        cases hfits with
        | two hm hv hw => exact .two hm ((parse_trim_iff ht).mp hv) ((parse_trim_iff hu).mp hw)
      -- No method takes a third argument.
      · cases hfits

/-! ## Commands -/

/-- The name of a collection: parts with points between them. -/
def IsCollectionName (t : List Char) : Prop :=
  ∃ parts, parts ≠ [] ∧ (∀ part ∈ parts, Shape.IsPart part) ∧ t = List.intercalate ['.'] parts

theorem isMethodName_name (m : Method) : Shape.isMethodName m.name.toList = true := by
  cases m <;> decide

theorem parse_iff_shape {text : String} {c : Command} :
    parse text = .ok c ↔ ∃ shape, Shape.ofText text.toList = .ok shape ∧
      (Call.check shape.method shape.arguments >>= ofCall text shape.collection) = .ok c := by
  unfold parse shape
  by_cases hempty : text.isEmpty = true
  · rw [String.isEmpty_iff.mp hempty]
    simp [throw, throwThe, MonadExceptOf.throw, bind, Except.bind, Shape.ofText]
  · simp only [if_neg hempty, Except.bind_eq_ok_iff, Except.mapError_eq_ok_iff]

/-- Where the arguments stand in the text does not matter to their texts. -/
theorem map_text_shifted (base : Nat) (fragments : List Fragment) :
    (fragments.map (·.shifted base)).map Fragment.text = fragments.map Fragment.text := by
  rw [List.map_map]
  rfl

/-- A command is read from a text that is made up of names and what the method takes. -/
theorem parse_iff_names {text : String} {c : Command} :
    parse text = .ok c ↔
      ∃ w₁ parts method w₂ arguments w₃,
        isBlank w₁ = true ∧ isBlank w₂ = true ∧ isBlank w₃ = true ∧
        text.toList = w₁ ++ (Shape.nameChars parts method ++ w₂ ++
          '(' :: (arguments ++ [')'])) ++ w₃ ∧
        parts ≠ [] ∧ (∀ t ∈ parts, Shape.IsPart t) ∧ c.raw = text ∧
        c.collection = String.ofList (Shape.joinParts parts) ∧
        c.method.name = String.ofList method ∧
        Takes c.method arguments c.primary c.secondary := by
  rw [parse_iff_shape]
  constructor
  · rintro ⟨shape, hshape, hcall⟩
    obtain ⟨w₁, parts, method, w₂, arguments, w₃, fragments, hw₁, hw₂, hw₃, htext, hne, hparts, -,
      hsplit, rfl⟩ := Shape.ofText_eq_ok_iff.mp hshape
    obtain ⟨hraw, hcollection, hmethod, hfits⟩ := check_bind_ofCall_iff.mp hcall
    rw [map_text_shifted] at hfits
    exact ⟨w₁, parts, method, w₂, arguments, w₃, hw₁, hw₂, hw₃, htext, hne, hparts, hraw,
      hcollection, hmethod, takes_iff.mpr ⟨fragments, hsplit, hfits⟩⟩
  · rintro ⟨w₁, parts, method, w₂, arguments, w₃, hw₁, hw₂, hw₃, htext, hne, hparts, hraw,
      hcollection, hmethod, htakes⟩
    obtain ⟨fragments, hsplit, hfits⟩ := takes_iff.mp htakes
    have hname : Shape.isMethodName method = true := by
      have hname := isMethodName_name c.method
      rwa [hmethod, String.toList_ofList] at hname
    refine ⟨_, Shape.ofText_eq_ok_iff.mpr ⟨w₁, parts, method, w₂, arguments, w₃, fragments, hw₁,
      hw₂, hw₃, htext, hne, hparts, hname, hsplit, rfl⟩, ?_⟩
    refine check_bind_ofCall_iff.mpr ⟨hraw, hcollection, hmethod, ?_⟩
    rw [map_text_shifted]
    exact hfits

/-- The language of commands, and that two arguments are set apart by one comma only. -/
theorem parse_iff_written (text : String) (c : Command) :
    (parse text = .ok c ↔
      ∃ w₁ collection method w₂ arguments w₃,
        isBlank w₁ = true ∧ isBlank w₂ = true ∧ isBlank w₃ = true ∧
        text.toList = w₁ ++ "db.".toList ++ collection ++ '.' :: method ++ w₂ ++
          '(' :: arguments ++ ')' :: w₃ ∧
        IsCollectionName collection ∧ c.raw = text ∧ c.collection = String.ofList collection ∧
        c.method.name = String.ofList method ∧
        Takes c.method arguments c.primary c.secondary) ∧
    ∀ t₁ v₁ t₂ v₂ u₁ w₁ u₂ w₂, IsArgument t₁ v₁ → IsArgument t₂ v₂ → IsArgument u₁ w₁ →
      IsArgument u₂ w₂ → t₁ ++ ',' :: t₂ = u₁ ++ ',' :: u₂ → t₁ = u₁ ∧ t₂ = u₂ := by
  constructor
  · rw [parse_iff_names]
    constructor
    · rintro ⟨w₁, parts, method, w₂, arguments, w₃, hw₁, hw₂, hw₃, htext, hne, hparts, hrest⟩
      refine ⟨w₁, Shape.joinParts parts, method, w₂, arguments, w₃, hw₁, hw₂, hw₃, ?_,
        ⟨parts, hne, hparts, rfl⟩, hrest⟩
      rw [htext, Shape.nameChars_eq hne]
      simp
    · rintro ⟨w₁, collection, method, w₂, arguments, w₃, hw₁, hw₂, hw₃, htext,
        ⟨parts, hne, hparts, rfl⟩, hrest⟩
      refine ⟨w₁, parts, method, w₂, arguments, w₃, hw₁, hw₂, hw₃, ?_, hne, hparts, hrest⟩
      rw [htext, Shape.nameChars_eq hne]
      simp [Shape.joinParts]
  · intro t₁ v₁ t₂ v₂ u₁ w₁ u₂ w₂ ht₁ _ hu₁ _ h
    exact Arguments.eq_of_balanced_comma ht₁.balanced hu₁.balanced h

end Command

end DocShell
