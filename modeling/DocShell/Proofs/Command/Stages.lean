import DocShell.Proofs.Command.Decomposition
import DocShell.Proofs.Literal.Faults

set_option autoImplicit false

/-! # Which error a text gives

A text can be wrong in several ways at once. `Stage` lists what can become of a text, in the
order in which it is examined: each case says that the earlier ones do not apply and nothing
about the later ones. So the shape comes before the method, the method before the number of the
arguments, the number before the literals, and among the literals the first one decides.
`parse_iff_stage` says that exactly one of the cases holds, the one that `parse` reports.

The least number of arguments is examined too, but after the second argument has been asked for,
and no method requires more than that: this check never fails (`check_ne_tooFewArguments`).
-/

namespace DocShell

/-! ## Methods and the number of arguments -/

theorem Method.ofName_of_unknown {name : String} (h : ∀ m : Method, m.name ≠ name) :
    ofName name = .error (.unsupportedMethod name) := by
  unfold ofName
  cases hm : ofName? name with
  | none => rfl
  | some m => exact absurd (ofName?_eq_some_iff.mp hm) (h m)

/-- The name tells the method. -/
theorem Method.eq_of_name {m m' : Method} (h : m.name = m'.name) : m = m' := by
  have hm : some m = some m' := by
    rw [← ofName?_name m, h, ofName?_name]
  exact Option.some.inj hm

namespace Call

theorem check_of_unknown {name : String} (h : ∀ m : Method, m.name ≠ name)
    (arguments : List Fragment) : check name arguments = .error (.unsupportedMethod name) := by
  unfold check
  rw [Method.ofName_of_unknown h]
  rfl

/-- The check of a call of a method. Its least number of arguments does not occur: it is none, or
it is two and there is a second argument. -/
theorem check_name (m : Method) (arguments : List Fragment) :
    check m.name arguments =
      if m.rule.requiresSecond = true ∧ arguments.length < 2 then .error (.missingOptions m.name)
      else
        match arguments[m.rule.most]? with
        | some extra =>
          .error (.malformed
            ⟨.tooManyArguments m.name m.rule.most arguments.length, some extra.offset⟩)
        | none =>
          .ok ⟨m, arguments[0]?, if m.rule.requiresSecond then arguments[1]? else none⟩ := by
  have hname : Method.ofName m.name = .ok m := Method.ofName_eq_ok_iff.mpr rfl
  have hleast : ¬(m.rule.requiresSecond = true ∧ arguments.length < 2) →
      ¬ arguments.length < m.rule.least := by
    intro hsecond hfew
    rcases m.rule_cases with ⟨-, hzero, -⟩ | ⟨hrequires, htwo, -⟩
    · omega
    · exact hsecond ⟨hrequires, by omega⟩
  unfold check
  rw [hname]
  by_cases hsecond : m.rule.requiresSecond = true ∧ arguments.length < 2
  · simp only [bind, Except.bind, if_pos hsecond]
    rfl
  · simp only [bind, Except.bind, if_neg hsecond, if_neg (hleast hsecond), pure, Except.pure]
    cases arguments[m.rule.most]? <;> rfl

/-- A call is never refused for too few arguments, whatever the name and the arguments are. -/
theorem check_ne_tooFewArguments (name : String) (arguments : List Fragment) (method : String)
    (least given : Nat) (place : Option Nat) :
    check name arguments ≠ .error (.malformed ⟨.tooFewArguments method least given, place⟩) := by
  intro h
  by_cases hknown : ∃ m : Method, m.name = name
  · obtain ⟨m, rfl⟩ := hknown
    rw [check_name] at h
    by_cases hsecond : m.rule.requiresSecond = true ∧ arguments.length < 2
    · rw [if_pos hsecond] at h
      simp at h
    · rw [if_neg hsecond] at h
      split at h
      · simp at h
      · contradiction
  · rw [check_of_unknown (not_exists.mp hknown)] at h
    simp at h

end Call

namespace Command

/-! ## The literals of a call -/

/-- All arguments are literals, or there is a first one that is none. -/
theorem exists_first_refused (arguments : List Fragment) :
    (∀ f ∈ arguments, ∃ v, Literal.parse f.text = .ok v) ∨
      ∃ before f after e, arguments = before ++ f :: after ∧
        (∀ g ∈ before, ∃ v, Literal.parse g.text = .ok v) ∧ Literal.parse f.text = .error e := by
  induction arguments with
  | nil => exact .inl (by simp)
  | cons f arguments ih =>
      cases hf : Literal.parse f.text with
      | error e => exact .inr ⟨[], f, arguments, e, rfl, by simp, hf⟩
      | ok v =>
          rcases ih with hall | ⟨before, g, after, e, rfl, hbefore, hg⟩
          · exact .inl (List.forall_mem_cons.mpr ⟨⟨v, hf⟩, hall⟩)
          · exact .inr ⟨f :: before, g, after, e, rfl,
              List.forall_mem_cons.mpr ⟨⟨v, hf⟩, hbefore⟩, hg⟩

/-- Literals in the right number fit the method. -/
theorem exists_fits {m : Method} {arguments : List Fragment}
    (hsecond : ¬(m.rule.requiresSecond = true ∧ arguments.length < 2))
    (hmost : arguments.length ≤ m.rule.most)
    (hliterals : ∀ f ∈ arguments, ∃ v, Literal.parse f.text = .ok v) :
    ∃ v w, Fits m (arguments.map Fragment.text) v w := by
  rcases m.rule_cases with ⟨hm, -, hone⟩ | ⟨hm, -, htwo⟩
  · rcases arguments with _ | ⟨f, _ | ⟨g, more⟩⟩
    · exact ⟨.empty, none, .omitted hm⟩
    · obtain ⟨v, hv⟩ := hliterals f (by simp)
      exact ⟨v, none, .one hm hv⟩
    · rw [hone, List.length_cons, List.length_cons] at hmost
      omega
  · have hlength : arguments.length = 2 := by
      have hle : ¬ arguments.length < 2 := fun hfew => hsecond ⟨hm, hfew⟩
      omega
    obtain ⟨f, g, rfl⟩ := List.length_eq_two.mp hlength
    obtain ⟨v, hv⟩ := hliterals f (by simp)
    obtain ⟨w, hw⟩ := hliterals g (by simp)
    exact ⟨v, some w, .two hm hv hw⟩

theorem Fits.isSome_secondary {m : Method} {texts : List String} {v : Value} {w : Option Value}
    (h : Fits m texts v w) : w.isSome = m.rule.requiresSecond := by
  cases h with
  | omitted hm => exact hm.symm
  | one hm => exact hm.symm
  | two hm => exact hm.symm

theorem Fits.primary_of_nil {m : Method} {v : Value} {w : Option Value} (h : Fits m [] v w) :
    v = .empty := by
  cases h with
  | omitted => rfl

theorem argument_of_refused {f : Fragment} {e : SyntaxError} (h : Literal.parse f.text = .error e) :
    argument f = .error (.malformed (e.shifted f.offset)) := by
  rw [argument, h]

/-- The first argument that is no literal decides. -/
theorem ofCall_of_refused {raw collection : String} {m : Method} {before after : List Fragment}
    {f : Fragment} {e : SyntaxError} (hmost : (before ++ f :: after).length ≤ m.rule.most)
    (hbefore : ∀ g ∈ before, ∃ v, Literal.parse g.text = .ok v)
    (hf : Literal.parse f.text = .error e) :
    ofCall raw collection ⟨m, (before ++ f :: after)[0]?,
        if m.rule.requiresSecond then (before ++ f :: after)[1]? else none⟩ =
      .error (.malformed (e.shifted f.offset)) := by
  have herror : argument? (some f) = .error (.malformed (e.shifted f.offset)) := by
    rw [argument?, argument_of_refused hf]
    rfl
  unfold ofCall
  rcases before with _ | ⟨g, _ | ⟨g', before⟩⟩
  · exact Except.bind_eq_error_iff.mpr (.inl herror)
  · -- There is an argument before, so the method takes two, and this is the second.
    obtain ⟨v, hv⟩ := hbefore g (by simp)
    have hm : m.rule.requiresSecond = true := by
      rcases m.rule_cases with ⟨-, -, hone⟩ | ⟨hm, -, -⟩
      · rw [hone] at hmost
        simp only [List.length_append, List.length_cons] at hmost
        omega
      · exact hm
    refine Except.bind_eq_error_iff.mpr (.inr ⟨some v, argument?_some_iff.mpr ⟨v, hv, rfl⟩, ?_⟩)
    rw [if_pos hm]
    exact Except.bind_eq_error_iff.mpr (.inl herror)
  · -- No method takes three arguments.
    have htwo : m.rule.most ≤ 2 := by
      rcases m.rule_cases with ⟨-, -, hmost⟩ | ⟨-, -, hmost⟩ <;> omega
    simp only [List.length_append, List.length_cons] at hmost
    omega

/-! ## The stages -/

/-- What can become of a text, in the order in which it is examined. -/
inductive Stage (s : String) : Except QueryError Command → Prop
  | missing (hs : s = "") : Stage s (.error .missingInput)
  | misshapen {e : SyntaxError} (hs : s ≠ "") (he : Shape.ofText s.toList = .error e) :
      Stage s (.error (.malformed e))
  | unsupported {shape : Shape} (hshape : Shape.ofText s.toList = .ok shape)
      (hm : ∀ m : Method, m.name ≠ shape.method) :
      Stage s (.error (.unsupportedMethod shape.method))
  | lacking {shape : Shape} {m : Method} (hshape : Shape.ofText s.toList = .ok shape)
      (hm : m.name = shape.method)
      (hsecond : m.rule.requiresSecond = true ∧ shape.arguments.length < 2) :
      Stage s (.error (.missingOptions m.name))
  | excessive {shape : Shape} {m : Method} {extra : Fragment}
      (hshape : Shape.ofText s.toList = .ok shape) (hm : m.name = shape.method)
      (hsecond : ¬(m.rule.requiresSecond = true ∧ shape.arguments.length < 2))
      (hextra : shape.arguments[m.rule.most]? = some extra) :
      Stage s (.error (.malformed
        ⟨.tooManyArguments m.name m.rule.most shape.arguments.length, some extra.offset⟩))
  | refused {shape : Shape} {m : Method} {before after : List Fragment} {f : Fragment}
      {e : SyntaxError} (hshape : Shape.ofText s.toList = .ok shape) (hm : m.name = shape.method)
      (hsecond : ¬(m.rule.requiresSecond = true ∧ shape.arguments.length < 2))
      (hmost : shape.arguments.length ≤ m.rule.most)
      (harguments : shape.arguments = before ++ f :: after)
      (hbefore : ∀ g ∈ before, ∃ v, Literal.parse g.text = .ok v)
      (hf : Literal.parse f.text = .error e) :
      Stage s (.error (.malformed (e.shifted f.offset)))
  | read {shape : Shape} {c : Command} (hshape : Shape.ofText s.toList = .ok shape)
      (hraw : c.raw = s) (hcollection : c.collection = shape.collection)
      (hm : c.method.name = shape.method)
      (hfits : Fits c.method (shape.arguments.map Fragment.text) c.primary c.secondary) :
      Stage s (.ok c)

/-- There is no shape without text. -/
theorem ne_empty_of_ofText {s : String} {shape : Shape} (h : Shape.ofText s.toList = .ok shape) :
    s ≠ "" := by
  rintro rfl
  contradiction

theorem parse_of_misshapen {s : String} {e : SyntaxError} (hs : s ≠ "")
    (h : Shape.ofText s.toList = .error e) : parse s = .error (.malformed e) := by
  apply parse_of_shape_error hs
  rw [shape, h]
  rfl

theorem parse_of_shape {s : String} {shape : Shape} (h : Shape.ofText s.toList = .ok shape) :
    parse s = Call.check shape.method shape.arguments >>= ofCall s shape.collection := by
  have hempty : ¬ s.isEmpty = true := by simpa using ne_empty_of_ofText h
  simp [parse, Command.shape, hempty, h, bind, Except.bind, Except.mapError]

/-- Each stage is what `parse` reports. -/
theorem parse_of_stage {s : String} {result : Except QueryError Command} (h : Stage s result) :
    parse s = result := by
  cases h with
  | missing hs =>
      subst hs
      rfl
  | misshapen hs he => exact parse_of_misshapen hs he
  | unsupported hshape hm =>
      rw [parse_of_shape hshape, Call.check_of_unknown hm]
      rfl
  | lacking hshape hm hsecond =>
      rw [parse_of_shape hshape, ← hm, Call.check_name, if_pos hsecond]
      rfl
  | excessive hshape hm hsecond hextra =>
      rw [parse_of_shape hshape, ← hm, Call.check_name, if_neg hsecond, hextra]
      rfl
  | refused hshape hm hsecond hmost harguments hbefore hf =>
      rw [parse_of_shape hshape, ← hm, Call.check_name, if_neg hsecond,
        List.getElem?_eq_none hmost, harguments]
      rw [harguments] at hmost
      exact ofCall_of_refused hmost hbefore hf
  | read hshape hraw hcollection hm hfits =>
      rw [parse_of_shape hshape]
      exact check_bind_ofCall_iff.mpr ⟨hraw, hcollection, hm, hfits⟩

/-- Where all arguments are literals, and there are as many as the method wants, a command is
read. -/
theorem stage_of_literals {s : String} {shape : Shape} {m : Method}
    (hshape : Shape.ofText s.toList = .ok shape) (hm : m.name = shape.method)
    (hsecond : ¬(m.rule.requiresSecond = true ∧ shape.arguments.length < 2))
    (hmost : shape.arguments.length ≤ m.rule.most)
    (hliterals : ∀ f ∈ shape.arguments, ∃ v, Literal.parse f.text = .ok v) :
    ∃ v w, Fits m (shape.arguments.map Fragment.text) v w ∧
      Stage s (.ok ⟨s, shape.collection, m, v, w⟩) := by
  obtain ⟨v, w, hfits⟩ := exists_fits hsecond hmost hliterals
  exact ⟨v, w, hfits, .read hshape rfl rfl hm hfits⟩

/-- Some stage is reached. -/
theorem exists_stage (s : String) : ∃ result, Stage s result := by
  by_cases hs : s = ""
  · exact ⟨_, .missing hs⟩
  cases hshape : Shape.ofText s.toList with
  | error e => exact ⟨_, .misshapen hs hshape⟩
  | ok shape =>
      by_cases hknown : ∃ m : Method, m.name = shape.method
      · obtain ⟨m, hm⟩ := hknown
        by_cases hsecond : m.rule.requiresSecond = true ∧ shape.arguments.length < 2
        · exact ⟨_, .lacking hshape hm hsecond⟩
        cases hextra : shape.arguments[m.rule.most]? with
        | some extra => exact ⟨_, .excessive hshape hm hsecond hextra⟩
        | none =>
            have hmost : shape.arguments.length ≤ m.rule.most := List.getElem?_eq_none_iff.mp hextra
            rcases exists_first_refused shape.arguments with
              hliterals | ⟨before, f, after, e, harguments, hbefore, hf⟩
            · obtain ⟨v, w, -, hread⟩ := stage_of_literals hshape hm hsecond hmost hliterals
              exact ⟨_, hread⟩
            · exact ⟨_, .refused hshape hm hsecond hmost harguments hbefore hf⟩
      · exact ⟨_, .unsupported hshape (not_exists.mp hknown)⟩

theorem parse_iff_stage {s : String} {result : Except QueryError Command} :
    parse s = result ↔ Stage s result := by
  constructor
  · rintro rfl
    obtain ⟨result, hstage⟩ := exists_stage s
    rw [parse_of_stage hstage]
    exact hstage
  · exact parse_of_stage

/-! ## What the stages say -/

/-- The error of a literal is not one about the number of arguments. -/
theorem shifted_ne_tooManyArguments {t : String} {e : SyntaxError} (h : Literal.parse t = .error e)
    (base : Nat) (method : String) (most given : Nat) (place : Option Nat) :
    e.shifted base ≠ ⟨.tooManyArguments method most given, place⟩ := by
  intro heq
  have hreason : e.reason = .tooManyArguments method most given := congrArg SyntaxError.reason heq
  have hliteral := (Literal.isBoundary_of_parse h).1
  rw [hreason] at hliteral
  contradiction

theorem missingInput_iff {s : String} : parse s = .error .missingInput ↔ s = "" := by
  constructor
  · intro h
    cases parse_iff_stage.mp h with
    | missing hs => exact hs
  · intro hs
    exact parse_of_stage (.missing hs)

section Shaped

variable {s : String} {shape : Shape} {m : Method}

theorem unsupportedMethod_iff (hshape : Shape.ofText s.toList = .ok shape) {name : String} :
    parse s = .error (.unsupportedMethod name) ↔
      name = shape.method ∧ ∀ m : Method, m.name ≠ shape.method := by
  constructor
  · intro h
    cases parse_iff_stage.mp h with
    | unsupported hshape' hm =>
        obtain rfl := Except.ok.inj (hshape.symm.trans hshape')
        exact ⟨rfl, hm⟩
  · rintro ⟨rfl, hm⟩
    exact parse_of_stage (.unsupported hshape hm)

theorem missingOptions_iff (hshape : Shape.ofText s.toList = .ok shape) (hm : m.name = shape.method)
    {name : String} :
    parse s = .error (.missingOptions name) ↔
      name = m.name ∧ m.rule.requiresSecond = true ∧ shape.arguments.length < 2 := by
  constructor
  · intro h
    cases parse_iff_stage.mp h with
    | lacking hshape' hm' hsecond =>
        obtain rfl := Except.ok.inj (hshape.symm.trans hshape')
        obtain rfl := Method.eq_of_name (hm'.trans hm.symm)
        exact ⟨rfl, hsecond⟩
  · rintro ⟨rfl, hsecond⟩
    exact parse_of_stage (.lacking hshape hm hsecond)

theorem tooManyArguments_iff (hshape : Shape.ofText s.toList = .ok shape)
    (hm : m.name = shape.method)
    (hsecond : ¬(m.rule.requiresSecond = true ∧ shape.arguments.length < 2)) :
    (∃ place, parse s = .error (.malformed
      ⟨.tooManyArguments m.name m.rule.most shape.arguments.length, place⟩)) ↔
      m.rule.most < shape.arguments.length := by
  constructor
  · rintro ⟨place, h⟩
    by_contra hle
    -- Otherwise all arguments are literals, or the error is that of a literal.
    rcases exists_first_refused shape.arguments with
      hliterals | ⟨before, f, after, e, harguments, hbefore, hf⟩
    · obtain ⟨v, w, -, hread⟩ := stage_of_literals hshape hm hsecond (not_lt.mp hle) hliterals
      rw [parse_of_stage hread] at h
      contradiction
    · have hrefused := Stage.refused hshape hm hsecond (not_lt.mp hle) harguments hbefore hf
      rw [parse_of_stage hrefused, Except.error.injEq, QueryError.malformed.injEq] at h
      exact shifted_ne_tooManyArguments hf f.offset _ _ _ _ h
  · intro hmost
    obtain ⟨extra, hextra⟩ : ∃ extra, shape.arguments[m.rule.most]? = some extra :=
      ⟨_, List.getElem?_eq_getElem hmost⟩
    exact ⟨_, parse_of_stage (.excessive hshape hm hsecond hextra)⟩

end Shaped

/-- Which error a text gives, or that it gives a command, stage by stage. -/
theorem parse_by_stage (s : String) :
    (parse s = .error .missingInput ↔ s = "") ∧
    (s ≠ "" → ∀ e, Shape.ofText s.toList = .error e → parse s = .error (.malformed e)) ∧
    (∀ shape, Shape.ofText s.toList = .ok shape →
      (∀ name, parse s = .error (.unsupportedMethod name) ↔
        name = shape.method ∧ ∀ m : Method, m.name ≠ shape.method) ∧
      ∀ m : Method, m.name = shape.method →
        (∀ name, parse s = .error (.missingOptions name) ↔
          name = m.name ∧ m.rule.requiresSecond = true ∧ shape.arguments.length < 2) ∧
        (¬(m.rule.requiresSecond = true ∧ shape.arguments.length < 2) →
          ((∃ place, parse s = .error (.malformed
            ⟨.tooManyArguments m.name m.rule.most shape.arguments.length, place⟩)) ↔
              m.rule.most < shape.arguments.length) ∧
          (∀ extra, shape.arguments[m.rule.most]? = some extra → parse s = .error (.malformed
            ⟨.tooManyArguments m.name m.rule.most shape.arguments.length, some extra.offset⟩)) ∧
          (shape.arguments.length ≤ m.rule.most →
            (∀ before f after e, shape.arguments = before ++ f :: after →
              (∀ g ∈ before, ∃ v, Literal.parse g.text = .ok v) →
              Literal.parse f.text = .error e →
              parse s = .error (.malformed (e.shifted f.offset))) ∧
            ((∀ f ∈ shape.arguments, ∃ v, Literal.parse f.text = .ok v) →
              ∃ c, parse s = .ok c ∧ c.raw = s ∧ c.collection = shape.collection ∧ c.method = m ∧
                c.secondary.isSome = m.rule.requiresSecond ∧
                (shape.arguments = [] → c.primary = .empty) ∧
                Fits m (shape.arguments.map Fragment.text) c.primary c.secondary)))) ∧
    ∀ name arguments method least given place, Call.check name arguments ≠
      .error (.malformed ⟨.tooFewArguments method least given, place⟩) := by
  refine ⟨missingInput_iff, fun hs e he => parse_of_misshapen hs he, ?_,
    Call.check_ne_tooFewArguments⟩
  intro shape hshape
  refine ⟨fun name => unsupportedMethod_iff hshape, ?_⟩
  intro m hm
  refine ⟨fun name => missingOptions_iff hshape hm, ?_⟩
  intro hsecond
  refine ⟨tooManyArguments_iff hshape hm hsecond, ?_, ?_⟩
  · intro extra hextra
    exact parse_of_stage (.excessive hshape hm hsecond hextra)
  · intro hmost
    constructor
    · intro before f after e harguments hbefore hf
      exact parse_of_stage (.refused hshape hm hsecond hmost harguments hbefore hf)
    · intro hliterals
      obtain ⟨v, w, hfits, hread⟩ := stage_of_literals hshape hm hsecond hmost hliterals
      refine ⟨_, parse_of_stage hread, rfl, rfl, rfl, hfits.isSome_secondary, ?_, hfits⟩
      intro hnil
      rw [hnil] at hfits
      exact hfits.primary_of_nil

/-- Neither of the two arguments is a literal: the first one decides, and its place is counted
from the beginning of the text. -/
theorem parse_by_stage_updateOne :
    ∃ shape, Shape.ofText " db.users.updateOne(\x7ba: nope\x7d, oops)".toList = .ok shape ∧
      Method.updateOne.name = shape.method ∧ shape.arguments.length = 2 ∧
      (∃ e, Literal.parse "oops" = .error e) ∧
      parse " db.users.updateOne(\x7ba: nope\x7d, oops)" =
        .error (.malformed ⟨.unknownWord "nope".toList, some 24⟩) := by
  have hshape : Shape.ofText " db.users.updateOne(\x7ba: nope\x7d, oops)".toList =
      .ok ⟨"users", "updateOne", [⟨"\x7ba: nope\x7d", 20⟩, ⟨"oops", 31⟩]⟩ := by
    decide +kernel
  have hfirst : Literal.parse "\x7ba: nope\x7d" = .error ⟨.unknownWord "nope".toList, some 4⟩ :=
    Except.error?_eq_some_iff.mp (by decide +kernel)
  have hsecond : Literal.parse "oops" = .error ⟨.unknownWord "oops".toList, some 0⟩ :=
    Except.error?_eq_some_iff.mp (by decide +kernel)
  refine ⟨_, hshape, rfl, rfl, ⟨_, hsecond⟩, ?_⟩
  exact ((((parse_by_stage _).2.2.1 _ hshape).2 .updateOne rfl).2 (by decide)).2.2 (by decide)
    |>.1 [] _ [⟨"oops", 31⟩] _ rfl (by simp) hfirst

end Command

end DocShell
