import DocShell.Literal.Cursor
import DocShell.Proofs.Reading

set_option autoImplicit false

/-! # Reading in place follows the readers of tails

A reader of tails is given `cs` and leaves `rest`; an action is given the place where `cs` begins
and leaves the cursor where `rest` begins. `Mirrors` says that an action does so with the same
value, or refuses the text at the same place and for the same reason. In particular the action
ends, and does so without a bad slice and without leaving a container too often. Actions that
mirror readers can be put one after the other (`Mirrors.bind`), and since a tail always begins
between two characters, nothing about bytes is left to show but in the steps of this module.
-/

namespace DocShell

/-! ## Slices -/

namespace Text

variable {cs source before after part : List Char} {n : Nat}

theorem cut?_zero (cs : List Char) : cut? cs 0 = some ([], cs) := by
  cases cs <;> rfl

/-- A text is cut where a part of it ends. -/
theorem cut?_append (before after : List Char) :
    cut? (before ++ after) (size before) = some (before, after) := by
  induction before with
  | nil => exact cut?_zero after
  | cons c before ih =>
      have hc := c.utf8Size_pos
      obtain ⟨k, hk⟩ := Nat.exists_eq_add_of_lt hc
      have hsize : size (c :: before) = k + size before + 1 := by
        rw [size_cons]
        omega
      have hrest : k + size before + 1 - c.utf8Size = size before := by omega
      rw [hsize, List.cons_append, cut?, if_pos (by omega), hrest, ih, Option.map_some]

theorem eq_of_cut? (h : cut? cs n = some (before, after)) :
    cs = before ++ after ∧ n = size before := by
  induction cs, n using cut?.induct generalizing before with
  | case1 cs =>
      rw [cut?_zero, Option.some.injEq, Prod.mk.injEq] at h
      obtain ⟨rfl, rfl⟩ := h
      exact ⟨rfl, rfl⟩
  | case2 n => simp [cut?] at h
  | case3 c cs n hle ih =>
      rw [cut?, if_pos hle, Option.map_eq_some_iff] at h
      obtain ⟨⟨front, back⟩, hcut, hpair⟩ := h
      obtain ⟨rfl, rfl⟩ := Prod.mk.inj hpair
      obtain ⟨rfl, hsize⟩ := ih hcut
      exact ⟨rfl, by rw [size_cons]; omega⟩
  | case4 c cs n hle => simp [cut?, hle] at h

/-- The places where a text can be cut are those between its characters. -/
theorem isSome_cut?_iff : (cut? source n).isSome = true ↔ IsBoundary source n := by
  constructor
  · intro h
    obtain ⟨⟨before, after⟩, hcut⟩ := Option.isSome_iff_exists.mp h
    exact ⟨before, after, eq_of_cut? hcut⟩
  · rintro ⟨before, after, rfl, rfl⟩
    rw [cut?_append, Option.isSome_some]

theorem cut?_offsetOf (h : cs <:+ source) :
    (cut? source (offsetOf source cs)).map Prod.snd = some cs := by
  obtain ⟨before, rfl⟩ := h
  rw [offsetOf_append, cut?_append, Option.map_some]

/-- The place after a part of a tail. -/
theorem offsetOf_add_size (h : part ++ cs <:+ source) :
    offsetOf source (part ++ cs) + size part = offsetOf source cs := by
  obtain ⟨before, rfl⟩ := h
  rw [offsetOf_append, ← List.append_assoc, offsetOf_append, size_append]

theorem slice?_offsetOf (h : part ++ cs <:+ source) :
    slice? source (offsetOf source (part ++ cs)) (offsetOf source cs) = some part := by
  rw [← offsetOf_add_size h]
  obtain ⟨before, rfl⟩ := h
  simp only [slice?, offsetOf_append, cut?_append, Option.bind_eq_bind, Option.bind_some]
  rw [if_pos (Nat.le_add_right _ _), Nat.add_sub_cancel_left, cut?_append]
  rfl

end Text

theorem Reader.outcome_expect (wanted : Char) (cs : List Char) :
    outcome (expect wanted cs) =
      match Text.trimStart cs with
      | [] => .error ⟨.expected wanted none, []⟩
      | c :: rest =>
        if c = wanted then .ok ((), rest) else .error ⟨.expected wanted (some c), c :: rest⟩ := by
  unfold expect
  split
  · rename_i hnil
    rw [hnil]
    rfl
  · rename_i c rest hcons
    simp only [hcons]
    split_ifs
    · rfl
    · rfl

/-! ## Actions and readers of tails -/

namespace Cursor

variable {α β : Type} {source cs rest : List Char} {d d' d'' turns : Nat}

/-- What a reader of tails did, as it shows in the cursor. -/
def landing (source : List Char) (depth : Nat) :
    Except Fault (α × List Char) → Except Stop (α × Cursor)
  | .ok (a, rest) => .ok (a, ⟨Text.offsetOf source rest, depth⟩)
  | .error fault => .error (.refused (fault.toError source))

/-- Where the tail `cs` begins, the action does what a reader of tails does with `cs`. It is
called with `d` open containers and leaves `d'` of them. -/
structure Mirrors (source : List Char) (action : Action α) (cs : List Char) (d d' : Nat)
    (result : Except Fault (α × List Char)) : Prop where
  run_eq : action.run ⟨Text.offsetOf source cs, d⟩ = landing source d' result
  stays : ∀ {a rest}, result = .ok (a, rest) → rest <:+ cs

namespace Mirrors

theorem pure (a : α) : Mirrors source (Pure.pure a) cs d d (.ok (a, cs)) where
  run_eq := rfl
  stays h := by
    obtain ⟨-, rfl⟩ := Prod.mk.inj (Except.ok.inj h)
    exact List.suffix_rfl

/-- Actions follow each other as readers do. -/
theorem bind {x : Action α} {f : α → Action β} {result : Except Fault (α × List Char)}
    {g : α × List Char → Except Fault (β × List Char)} (hx : Mirrors source x cs d d' result)
    (hf : ∀ a rest, result = .ok (a, rest) → rest <:+ cs →
      Mirrors source (f a) rest d' d'' (g (a, rest))) :
    Mirrors source (x >>= f) cs d d'' (result.bind g) := by
  cases result with
  | error fault =>
      refine ⟨?_, fun h => nomatch h⟩
      rw [StateT.run_bind, hx.run_eq]
      rfl
  | ok p =>
      obtain ⟨a, rest⟩ := p
      have hrest := hx.stays rfl
      have hnext := hf a rest rfl hrest
      refine ⟨?_, fun h => (hnext.stays h).trans hrest⟩
      rw [StateT.run_bind, hx.run_eq]
      exact hnext.run_eq

/-- The action after one of which it is known what it reads. -/
theorem andThen {x : Action α} {f : α → Action β} {a : α}
    {result : Except Fault (β × List Char)} (hx : Mirrors source x cs d d' (.ok (a, rest)))
    (hf : rest <:+ cs → Mirrors source (f a) rest d' d'' result) :
    Mirrors source (x >>= f) cs d d'' result :=
  hx.bind (g := fun _ => result) fun _ _ h hrest => by
    obtain ⟨rfl, rfl⟩ := Prod.mk.inj (Except.ok.inj h)
    exact hf hrest

/-- Nothing follows an action that refuses the text. -/
theorem stop {x : Action α} {fault : Fault} (hx : Mirrors source x cs d d' (.error fault))
    (f : α → Action β) : Mirrors source (x >>= f) cs d d'' (.error fault) :=
  hx.bind (g := fun _ => .error fault) fun _ _ h => nomatch h

/-- The same for readers that hand on the proof of their progress. -/
theorem outcome_bind {ds es : List Char} {x : Action α} {f : α → Action β}
    {result : Except Fault (Parsed α ds)} {next : Parsed α ds → Except Fault (Parsed β es)}
    (hx : Mirrors source x cs d d' (outcome result))
    (hf : ∀ p, p.rest <:+ cs → Mirrors source (f p.value) p.rest d' d'' (outcome (next p))) :
    Mirrors source (x >>= f) cs d d'' (outcome (result >>= next)) := by
  cases result with
  | error fault => exact hx.stop f
  | ok p => exact hx.andThen (hf p)

theorem map {x : Action α} {result : Except Fault (α × List Char)} (f : α → β)
    (hx : Mirrors source x cs d d' result) :
    Mirrors source (x >>= fun a => Pure.pure (f a)) cs d d' (result.map (Prod.map f id)) := by
  have h := hx.bind (g := fun p => .ok (f p.1, p.2)) fun a rest _ _ => pure (f a)
  cases result with
  | error fault => exact h
  | ok p => exact h

/-- Actions follow each other as readers do, where something is made of what the last one reads. -/
theorem bind_map {γ : Type} {x : Action α} {f : α → Action γ}
    {result : Except Fault (α × List Char)} {g : α × List Char → Except Fault (β × List Char)}
    {make : β → γ} (hx : Mirrors source x cs d d' result)
    (hf : ∀ a rest, result = .ok (a, rest) → rest <:+ cs →
      Mirrors source (f a) rest d' d'' ((g (a, rest)).map (Prod.map make id))) :
    Mirrors source (x >>= f) cs d d'' ((result.bind g).map (Prod.map make id)) := by
  have hmap : (result.bind g).map (Prod.map make id) =
      result.bind fun p => (g p).map (Prod.map make id) := by
    cases result <;> rfl
  rw [hmap]
  exact hx.bind hf

end Mirrors

/-! ## Steps -/

theorem mirrors_here : Mirrors source here cs d d (.ok (Text.offsetOf source cs, cs)) where
  run_eq := rfl
  stays h := by
    obtain ⟨-, rfl⟩ := Prod.mk.inj (Except.ok.inj h)
    exact List.suffix_rfl

theorem mirrors_refuseAt {start : List Char} {reason : Reason} :
    Mirrors source (refuseAt (Text.offsetOf source start) reason : Action α) cs d d'
      (.error ⟨reason, start⟩) where
  run_eq := rfl
  stays h := nomatch h

theorem mirrors_refuse {reason : Reason} :
    Mirrors source (refuse reason : Action α) cs d d' (.error ⟨reason, cs⟩) :=
  mirrors_here.andThen fun _ => mirrors_refuseAt

theorem mirrors_tailFrom (h : rest <:+ source) :
    Mirrors source (tailFrom source (Text.offsetOf source rest)) cs d d (.ok (rest, cs)) := by
  obtain ⟨⟨before, after⟩, hcut, rfl⟩ := Option.map_eq_some_iff.mp (Text.cut?_offsetOf h)
  rw [tailFrom, hcut]
  exact .pure after

theorem mirrors_slice {part : List Char} (h : part ++ rest <:+ source) :
    Mirrors source
      (slice source (Text.offsetOf source (part ++ rest)) (Text.offsetOf source rest))
      cs d d (.ok (part, cs)) := by
  rw [slice, Text.slice?_offsetOf h]
  exact .pure part

/-- Moving on by the bytes of a part leaves the cursor after it. -/
theorem mirrors_advance {part : List Char} {bytes : Nat} (h : part ++ cs <:+ source)
    (hbytes : Text.size part = bytes) :
    Mirrors source (advance bytes) (part ++ cs) d d (.ok ((), cs)) where
  run_eq := by
    subst hbytes
    rw [landing, ← Text.offsetOf_add_size h]
    rfl
  stays h := by
    obtain ⟨-, rfl⟩ := Prod.mk.inj (Except.ok.inj h)
    exact List.suffix_append _ _

theorem mirrors_advance_cons {c : Char} (h : c :: cs <:+ source) :
    Mirrors source (advance c.utf8Size) (c :: cs) d d (.ok ((), cs)) := by
  have hone : [c] ++ cs <:+ source := h
  exact mirrors_advance hone (by simp)

theorem mirrors_peek (h : cs <:+ source) :
    Mirrors source (peek source) cs d d (.ok (cs.head?, cs)) :=
  mirrors_here.andThen fun _ => (mirrors_tailFrom h).andThen fun _ => .pure _

/-- The character at the cursor, where a proof may depend on what the tail is. -/
theorem mirrors_peek_of_eq {c : Char} (h : cs <:+ source) (hcs : cs = c :: rest) :
    Mirrors source (peek source) cs d d (.ok (some c, c :: rest)) := by
  subst hcs
  exact mirrors_peek h

theorem mirrors_bump_nil : Mirrors source (bump source) [] d d (.ok (none, [])) :=
  (mirrors_peek List.nil_suffix).andThen fun _ => .pure none

theorem mirrors_bump_cons {c : Char} (h : c :: cs <:+ source) :
    Mirrors source (bump source) (c :: cs) d d (.ok (some c, cs)) :=
  (mirrors_peek h).andThen fun _ => (mirrors_advance_cons h).andThen fun _ => .pure (some c)

theorem mirrors_eat_cons {wanted : Char} (h : wanted :: cs <:+ source) :
    Mirrors source (eat source wanted) (wanted :: cs) d d (.ok (true, cs)) := by
  refine (mirrors_peek h).andThen fun _ => ?_
  rw [List.head?_cons, if_pos rfl]
  exact (mirrors_advance_cons h).andThen fun _ => .pure true

theorem mirrors_eat_of_ne {wanted : Char} (h : cs <:+ source) (hne : cs.head? ≠ some wanted) :
    Mirrors source (eat source wanted) cs d d (.ok (false, cs)) := by
  refine (mirrors_peek h).andThen fun _ => ?_
  rw [if_neg hne]
  exact .pure false

/-! ## Loops over characters -/

/-- A tail of the text with fewer characters than there are turns for a loop. -/
structure Within (source : List Char) (turns : Nat) (cs : List Char) : Prop where
  suffix : cs <:+ source
  length_lt : cs.length < turns

theorem Within.of_suffix (h : Within source turns cs) (hrest : rest <:+ cs) :
    Within source turns rest :=
  ⟨hrest.trans h.suffix, Nat.lt_of_le_of_lt hrest.length_le h.length_lt⟩

theorem Within.tail {c : Char} (h : Within source turns (c :: cs)) : Within source turns cs :=
  h.of_suffix (List.suffix_cons c cs)

/-- A turn that moves on leaves enough turns for what is left. -/
theorem Within.step (h : Within source (turns + 1) cs) (hrest : rest <:+ cs)
    (hlt : rest.length < cs.length) : Within source turns rest :=
  ⟨hrest.trans h.suffix, Nat.lt_of_lt_of_le hlt (Nat.le_of_lt_succ h.length_lt)⟩

theorem Within.turns_ne_zero (h : Within source 0 cs) : False :=
  Nat.not_lt_zero _ h.length_lt

/-- A loop over characters of a kind ends at the first of another kind, if it moves on by the
width of each. -/
theorem mirrors_skipWhile {accept : Char → Bool} {width : Char → Nat}
    (hwidth : ∀ c, accept c = true → c.utf8Size = width c) (h : Within source turns cs) :
    Mirrors source (skipWhile source accept width turns) cs d d
      (.ok ((), cs.dropWhile accept)) := by
  induction turns generalizing cs with
  | zero => exact h.turns_ne_zero.elim
  | succ turns ih =>
      rw [skipWhile]
      cases cs with
      | nil => exact (mirrors_peek h.suffix).andThen fun _ => .pure ()
      | cons c cs =>
          refine (mirrors_peek h.suffix).andThen fun _ => ?_
          rw [List.head?_cons]
          cases hc : accept c with
          | true =>
              rw [List.dropWhile_cons_of_pos hc]
              simp only [hc, if_true]
              rw [← hwidth c hc]
              exact (mirrors_advance_cons h.suffix).andThen fun hcs =>
                ih (h.step hcs (Nat.lt_succ_self cs.length))
          | false =>
              rw [List.dropWhile_cons_of_neg (by simp [hc])]
              simp only [hc, Bool.false_eq_true, if_false]
              exact .pure ()

theorem mirrors_skipSpace (h : Within source turns cs) :
    Mirrors source (skipSpace source turns) cs d d (.ok ((), Text.trimStart cs)) :=
  mirrors_skipWhile (fun _ _ => rfl) h

theorem mirrors_expect (wanted : Char) (h : Within source turns cs) :
    Mirrors source (expect source turns wanted) cs d d (outcome (Reader.expect wanted cs)) := by
  refine (mirrors_skipSpace h).andThen fun htrim => ?_
  rw [Reader.outcome_expect]
  cases hcons : Text.trimStart cs with
  | nil => exact (mirrors_peek List.nil_suffix).andThen fun _ => mirrors_refuse
  | cons c rest =>
      have hrest : c :: rest <:+ source := hcons ▸ htrim.trans h.suffix
      refine (mirrors_peek hrest).andThen fun _ => ?_
      rw [List.head?_cons]
      dsimp only
      split_ifs
      · exact mirrors_advance_cons hrest
      · exact mirrors_refuse

/-! ## The depth -/

theorem mirrors_enter (h : d < Literal.maxDepth) :
    Mirrors source enter cs d (d + 1) (.ok ((), cs)) where
  run_eq := by
    have hdepth : ¬Literal.maxDepth < d + 1 := by omega
    show (if Literal.maxDepth < d + 1 then _ else _ : Action Unit) _ = _
    rw [if_neg hdepth]
    rfl
  stays h := by
    obtain ⟨-, rfl⟩ := Prod.mk.inj (Except.ok.inj h)
    exact List.suffix_rfl

/-- There is no room for more containers than there may be. -/
theorem mirrors_enter_full (h : Literal.maxDepth ≤ d) :
    Mirrors source enter cs d d (.error ⟨.tooDeep Literal.maxDepth, cs⟩) where
  run_eq := by
    show (if Literal.maxDepth < d + 1 then _ else _ : Action Unit) _ = _
    rw [if_pos (Nat.lt_succ_of_le h)]
    rfl
  stays h := nomatch h

/-- A container that was entered can be left. -/
theorem mirrors_leave {floor : Nat} (h : floor ≤ d) :
    Mirrors source (leave floor) cs (d + 1) d (.ok ((), cs)) where
  run_eq := by
    show (if d + 1 ≤ floor then _ else _ : Action Unit) _ = _
    rw [if_neg (by omega)]
    rfl
  stays h := by
    obtain ⟨-, rfl⟩ := Prod.mk.inj (Except.ok.inj h)
    exact List.suffix_rfl

end Cursor

end DocShell
