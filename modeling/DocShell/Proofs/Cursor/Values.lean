import DocShell.Proofs.Cursor.Tokens
import Mathlib.Data.List.DropRight

set_option autoImplicit false

/-! # Containers and values in place

The readers of tails pass over white space before an item, the cursor already after the bracket or
the comma, to see whether the container is closed there. Since neither a value nor a field depends
on the white space before it, the loops agree. A container takes one level of the room there is
for nesting while it is read, and gives it back.
-/

namespace DocShell

variable {α β γ : Type} {source cs rest : List Char} {d n floor turns : Nat}
  {container : Container}

/-! ## White space before an item -/

theorem Text.trimStart_trimStart (cs : List Char) : trimStart (trimStart cs) = trimStart cs :=
  List.dropWhile_idempotent isSpace cs

/-- A reader that does not depend on the white space before what it reads. -/
def Reader.SkipsSpace (item : Reader α) : Prop :=
  ∀ cs, outcome (item (Text.trimStart cs)) = outcome (item cs)

theorem Literal.skipsSpace_value (room : Nat) : Reader.SkipsSpace (value room) := by
  intro cs
  have htrim := Text.trimStart_trimStart cs
  cases hcs : Text.trimStart cs with
  | nil =>
      rw [hcs] at htrim
      rw [outcome_value_nil hcs, outcome_value_nil htrim]
  | cons c rest =>
      rw [hcs] at htrim
      rw [outcome_value_cons hcs, outcome_value_cons htrim]

/-- The reader of fields, by the parts of a field. -/
theorem Literal.outcome_field (value : Reader Value) (cs : List Char) :
    outcome (field value cs) =
      (outcome (Key.read cs)).bind fun (key, colon) =>
        (outcome (Reader.expect ':' colon)).bind fun (_, after) =>
          (outcome (value after)).map (Prod.map (Prod.mk key) id) := by
  unfold field
  cases Key.read cs with
  | error fault => rfl
  | ok key =>
      simp only [bind, Except.bind, outcome_ok]
      cases Reader.expect ':' key.rest with
      | error fault => rfl
      | ok colon =>
          simp only [outcome_ok]
          cases value colon.rest <;> rfl

theorem Literal.skipsSpace_field (value : Reader Value) : Reader.SkipsSpace (field value) := by
  intro cs
  rw [outcome_field, outcome_field, Cursor.outcome_key_read, Cursor.outcome_key_read,
    Text.trimStart_trimStart]

/-! ## What follows an item -/

/-- What follows an item: after a comma, white space and a further item. -/
def Reader.separated (container : Container) (cs : List Char) : Except Fault (Bool × List Char) :=
  match Text.trimStart cs with
  | [] => .error ⟨.unclosed container, []⟩
  | c :: rest =>
    if c = ',' then
      if (Text.trimStart rest).head? = some container.closing then
        .error ⟨.trailingComma container, Text.trimStart rest⟩
      else .ok (true, Text.trimStart rest)
    else if c = container.closing then .ok (false, rest)
    else .error ⟨.noSeparator container c, c :: rest⟩

/-- What a reader of items does after the first one. -/
def Reader.itemsAfter (container : Container) (item : Reader α) (x : α) (cs : List Char) :
    Except Fault (List α × List Char) :=
  match Text.trimStart cs with
  | [] => .error ⟨.unclosed container, []⟩
  | c :: rest =>
    if c = ',' then
      if (Text.trimStart rest).head? = some container.closing then
        .error ⟨.trailingComma container, Text.trimStart rest⟩
      else (outcome (items container item rest)).map (Prod.map (x :: ·) id)
    else if c = container.closing then .ok ([x], rest)
    else .error ⟨.noSeparator container c, c :: rest⟩

theorem Reader.outcome_items (item : Reader α) (cs : List Char) :
    outcome (items container item cs) =
      (outcome (item cs)).bind fun (x, after) => itemsAfter container item x after := by
  rw [items]
  cases item cs with
  | error fault => rfl
  | ok first =>
      simp only [outcome_ok, Except.bind]
      unfold itemsAfter
      split
      · rename_i hnil
        simp only [hnil, outcome_error]
      · rename_i c rest hcons
        simp only [hcons]
        split_ifs
        · rfl
        · cases items container item rest <;> rfl
        · rfl
        · rfl

theorem Reader.skipsSpace_items {item : Reader α} (hitem : SkipsSpace item) :
    SkipsSpace (items container item) := by
  intro cs
  rw [outcome_items, outcome_items, hitem]

/-- Further items may be read from the first character of them on. -/
theorem Reader.itemsAfter_eq {item : Reader α} (hitem : SkipsSpace item) (x : α)
    (cs : List Char) :
    itemsAfter container item x cs =
      (separated container cs).bind fun (more, next) =>
        if more then (outcome (items container item next)).map (Prod.map (x :: ·) id)
        else .ok ([x], next) := by
  unfold itemsAfter separated
  cases Text.trimStart cs with
  | nil => rfl
  | cons c rest =>
      dsimp only
      split_ifs
      · rfl
      · simp only [Except.bind, if_true, skipsSpace_items hitem rest]
      · rfl
      · rfl

theorem Reader.outcome_contents {item : Reader α} (hitem : SkipsSpace item) (cs : List Char) :
    outcome (contents container item cs) =
      if (Text.trimStart cs).head? = some container.closing then
        .ok ([], (Text.trimStart cs).tail)
      else outcome (items container item (Text.trimStart cs)) := by
  unfold contents
  split
  · rename_i hnil
    rw [skipsSpace_items hitem, hnil]
    rfl
  · rename_i c rest hcons
    rw [skipsSpace_items hitem]
    simp only [hcons, List.head?_cons, Option.some.injEq, List.tail_cons]
    split_ifs <;> rfl

namespace Cursor

/-! ## Containers -/

theorem mirrors_separator (container : Container) (h : Within source turns cs) :
    Mirrors source (separator source turns container) cs d d
      (Reader.separated container cs) := by
  have hhead : Within source turns (Text.trimStart cs) := h.of_suffix (Text.trimStart_suffix cs)
  refine (mirrors_skipSpace h).andThen fun _ => (mirrors_peek hhead.suffix).andThen fun _ => ?_
  unfold Reader.separated
  cases hcons : Text.trimStart cs with
  | nil => exact mirrors_refuse
  | cons c rest =>
      rw [hcons] at hhead
      have hnext : Text.trimStart rest <:+ source :=
        (hhead.tail.of_suffix (Text.trimStart_suffix rest)).suffix
      rw [List.head?_cons]
      dsimp only
      split_ifs with hcomma htrailing hclosing
      · refine (mirrors_bump_cons hhead.suffix).andThen fun _ => ?_
        refine (mirrors_skipSpace hhead.tail).andThen fun _ =>
          (mirrors_peek hnext).andThen fun _ => ?_
        rw [if_pos htrailing]
        exact mirrors_refuse
      · refine (mirrors_bump_cons hhead.suffix).andThen fun _ => ?_
        refine (mirrors_skipSpace hhead.tail).andThen fun _ =>
          (mirrors_peek hnext).andThen fun _ => ?_
        rw [if_neg htrailing]
        exact .pure true
      · exact (mirrors_bump_cons hhead.suffix).andThen fun _ => .pure false
      · exact mirrors_refuse

theorem mirrors_opened {c : Char} (hd : d < Literal.maxDepth)
    (h : Within source turns (c :: cs)) :
    Mirrors source (opened source turns container) (c :: cs) d (d + 1)
      (.ok (if (Text.trimStart cs).head? = some container.closing then
        (true, (Text.trimStart cs).tail) else (false, Text.trimStart cs))) := by
  have htrim : Text.trimStart cs <:+ source :=
    (h.tail.of_suffix (Text.trimStart_suffix cs)).suffix
  refine (mirrors_bump_cons h.suffix).andThen fun _ => (mirrors_enter hd).andThen fun _ => ?_
  refine (mirrors_skipSpace h.tail).andThen fun _ => ?_
  split_ifs with hclosed
  · obtain ⟨rest, hrest⟩ := List.head?_eq_some_iff.mp hclosed
    rw [hrest] at htrim ⊢
    exact mirrors_eat_cons htrim
  · exact mirrors_eat_of_ne htrim hclosed

theorem mirrors_opened_full {c : Char} (hd : Literal.maxDepth ≤ d) (h : c :: cs <:+ source) :
    Mirrors source (opened source turns container) (c :: cs) d d
      (.error ⟨.tooDeep Literal.maxDepth, cs⟩) :=
  (mirrors_bump_cons h).andThen fun _ => (mirrors_enter_full hd).stop _

/-- What a reader of items gives, after items that have been read before and `step` by step. -/
def gathered (step : γ → α → γ) (read : γ) (result : Except Fault (List α × List Char)) :
    Except Fault (γ × List Char) :=
  result.map (Prod.map (List.foldl step read) id)

theorem foldl_concat (read xs : List α) :
    xs.foldl (fun read x => read ++ [x]) read = read ++ xs := by
  induction xs generalizing read with
  | nil => simp
  | cons x xs ih => rw [List.foldl_cons, ih, List.append_assoc, List.singleton_append]

theorem gathered_cons (step : γ → α → γ) (read : γ) (x : α)
    (result : Except Fault (List α × List Char)) :
    gathered step read (result.map (Prod.map (x :: ·) id)) =
      gathered step (step read x) result := by
  cases result <;> rfl

/-- A loop over items reads them as the reader of items does, where each turn of it reads one item
and what follows it. -/
theorem mirrors_loop {step : γ → α → γ} (one : Nat → γ → Action γ) {loop : Nat → γ → Action γ}
    {item : Reader α}
    (hloop : ∀ turns read, loop (turns + 1) read = do
      let read ← one (turns + 1) read
      if ← separator source (turns + 1) container then loop turns read else return read)
    (hitem : Reader.SkipsSpace item)
    (hone : ∀ turns (cs : List Char) (read : γ), Within source turns cs → cs.length < n →
      Mirrors source (one turns read) cs d d ((outcome (item cs)).map (Prod.map (step read) id)))
    (h : Within source turns cs) (hn : cs.length < n) (read : γ) :
    Mirrors source (loop turns read) cs d d
      (gathered step read (outcome (Reader.items container item cs))) := by
  induction turns generalizing cs read with
  | zero => exact h.turns_ne_zero.elim
  | succ turns ih =>
      rw [hloop, Reader.outcome_items]
      have hfirst := hone (turns + 1) cs read h hn
      cases hread : outcome (item cs) with
      | error fault =>
          rw [hread] at hfirst
          exact hfirst.stop _
      | ok p =>
          obtain ⟨x, after⟩ := p
          have hshorter := length_lt_of_outcome hread
          have hfirst : Mirrors source (one (turns + 1) read) cs d d
              (.ok (step read x, after)) := by
            rw [hread] at hfirst
            exact hfirst
          refine hfirst.andThen fun hafter => ?_
          show Mirrors source _ after d d
            (gathered step read (Reader.itemsAfter container item x after))
          rw [Reader.itemsAfter_eq hitem]
          refine (mirrors_separator container (h.of_suffix hafter)).bind_map
            fun more next _ hnext => ?_
          cases more with
          | false => exact .pure (step read x)
          | true =>
              have hlt : next.length < cs.length := Nat.lt_of_le_of_lt hnext.length_le hshorter
              have hturn := ih (h.step (hnext.trans hafter) hlt) (Nat.lt_trans hlt hn) (step read x)
              rw [← gathered_cons] at hturn
              exact hturn

/-- A container is entered, read and left, whatever it holds. -/
theorem mirrors_container {c : Char} {action : Action Value} {loop : Action γ} {make : γ → Value}
    {empty : γ} {step : γ → α → γ} {item : Reader α}
    (haction : action = do
      if ← opened source turns container then
        leave floor
        return make empty
      else
        let read ← loop
        leave floor
        return make read)
    (hitem : Reader.SkipsSpace item)
    (hloop : ∀ rest, rest <:+ cs → Mirrors source loop rest (d + 1) (d + 1)
      (gathered step empty (outcome (Reader.items container item rest))))
    (hfloor : floor ≤ d) (hd : d < Literal.maxDepth) (h : Within source turns (c :: cs)) :
    Mirrors source action (c :: cs) d d
      ((outcome (Reader.contents container item cs)).map
        (Prod.map (fun xs => make (xs.foldl step empty)) id)) := by
  rw [haction, Reader.outcome_contents hitem]
  have hopened : Mirrors source (opened source turns container) (c :: cs) d (d + 1) _ :=
    mirrors_opened hd h
  split_ifs at hopened ⊢ with hclosed
  · exact hopened.andThen fun _ => (mirrors_leave hfloor).andThen fun _ => .pure (make empty)
  · refine hopened.andThen fun _ => ?_
    have hread := hloop (Text.trimStart cs) (Text.trimStart_suffix cs)
    cases hitems : outcome (Reader.items container item (Text.trimStart cs)) with
    | error fault =>
        rw [hitems] at hread
        exact hread.stop _
    | ok p =>
        obtain ⟨xs, rest⟩ := p
        rw [hitems] at hread
        exact hread.andThen fun _ => (mirrors_leave hfloor).andThen fun _ => .pure _

/-! ## Values -/

section Parts

variable {room : Nat} {value : Action Value}
  (hvalue : ∀ cs, Within source n cs →
    Mirrors source value cs d d (outcome (Literal.value room cs)))

include hvalue

theorem mirrors_item (read : List Value) (h : cs <:+ source) (hn : cs.length < n) :
    Mirrors source (item value read) cs d d
      ((outcome (Literal.value room cs)).map (Prod.map (fun v => read ++ [v]) id)) :=
  (hvalue cs ⟨h, hn⟩).map fun v => read ++ [v]

theorem mirrors_field (read : Fields) (h : Within source turns cs) (hn : cs.length < n) :
    Mirrors source (field source turns value read) cs d d
      ((outcome (Literal.field (Literal.value room) cs)).map
        (Prod.map (fun (name, v) => read.insert name v) id)) := by
  have htrim : Within source turns (Text.trimStart cs) := h.of_suffix (Text.trimStart_suffix cs)
  have hkey : Mirrors source (key source turns) (Text.trimStart cs) d d
      (outcome (Key.read cs)) := by
    rw [outcome_key_read]
    exact mirrors_key htrim
  rw [Literal.outcome_field]
  refine (mirrors_skipSpace h).andThen fun _ => hkey.bind_map fun name colon hname hcolon => ?_
  have hmark : Within source turns colon := htrim.of_suffix hcolon
  refine (mirrors_expect ':' hmark).bind_map fun _ after hexpect hafter => ?_
  have hlt : after.length < cs.length :=
    Nat.lt_trans (length_lt_of_outcome hexpect) (length_lt_of_outcome hname)
  have hv := hvalue after ⟨hafter.trans hmark.suffix, Nat.lt_trans hlt hn⟩
  dsimp only
  rw [map_map]
  exact hv.map fun v => Fields.insert name v read

theorem mirrors_items (read : List Value) (h : Within source turns cs) (hn : cs.length < n) :
    Mirrors source (items source value turns read) cs d d
      (gathered (fun read v => read ++ [v]) read
        (outcome (Reader.items .array (Literal.value room) cs))) :=
  mirrors_loop (fun _ => item value) (fun turns read => by rw [items])
    (Literal.skipsSpace_value room)
    (fun _ _ read h hn => mirrors_item hvalue read h.suffix hn) h hn read

theorem mirrors_fields (read : Fields) (h : Within source turns cs) (hn : cs.length < n) :
    Mirrors source (fields source value turns read) cs d d
      (gathered (fun read (name, v) => read.insert name v) read
        (outcome (Reader.items .object (Literal.field (Literal.value room)) cs))) :=
  mirrors_loop (fun turns => field source turns value) (fun turns read => by rw [fields])
    (Literal.skipsSpace_field _)
    (fun _ _ read h hn => mirrors_field hvalue read h hn) h hn read

end Parts

section Deeper

variable {c : Char} {value : Action Value}
  (hvalue : d < Literal.maxDepth → ∀ cs, Within source n cs →
    Mirrors source value cs (d + 1) (d + 1)
      (outcome (Literal.value (Literal.maxDepth - (d + 1)) cs)))

include hvalue

theorem mirrors_object (hfloor : floor ≤ d) (h : Within source turns (c :: cs))
    (hn : cs.length < n) :
    Mirrors source (object source turns value floor) (c :: cs) d d
      (match Literal.maxDepth - d with
      | 0 => .error ⟨.tooDeep Literal.maxDepth, cs⟩
      | room + 1 =>
        (outcome (Reader.contents .object (Literal.field (Literal.value room)) cs)).map
          (Prod.map Value.ofPairs id)) := by
  cases hroom : Literal.maxDepth - d with
  | zero => exact (mirrors_opened_full (by omega) h.suffix).stop _
  | succ room =>
      obtain rfl : Literal.maxDepth - (d + 1) = room := by omega
      have hd : d < Literal.maxDepth := by omega
      exact mirrors_container rfl (Literal.skipsSpace_field _)
        (fun rest hrest => mirrors_fields (hvalue hd) [] (h.tail.of_suffix hrest)
          (Nat.lt_of_le_of_lt hrest.length_le hn)) hfloor hd h

theorem mirrors_array (hfloor : floor ≤ d) (h : Within source turns (c :: cs))
    (hn : cs.length < n) :
    Mirrors source (array source turns value floor) (c :: cs) d d
      (match Literal.maxDepth - d with
      | 0 => .error ⟨.tooDeep Literal.maxDepth, cs⟩
      | room + 1 =>
        (outcome (Reader.contents .array (Literal.value room) cs)).map
          (Prod.map Value.array id)) := by
  cases hroom : Literal.maxDepth - d with
  | zero => exact (mirrors_opened_full (by omega) h.suffix).stop _
  | succ room =>
      obtain rfl : Literal.maxDepth - (d + 1) = room := by omega
      have hd : d < Literal.maxDepth := by omega
      have hmake : Value.array =
          fun xs => Value.array (xs.foldl (fun read v => read ++ [v]) []) := by
        funext xs
        rw [foldl_concat, List.nil_append]
      dsimp only
      rw [hmake]
      exact mirrors_container rfl (Literal.skipsSpace_value _)
        (fun rest hrest => mirrors_items (hvalue hd) [] (h.tail.of_suffix hrest)
          (Nat.lt_of_le_of_lt hrest.length_le hn)) hfloor hd h

end Deeper

/-- A value is read in place as it is read from a tail, with the room that the depth leaves. -/
theorem mirrors_value (hfloor : floor ≤ d) (hd : d ≤ Literal.maxDepth)
    (h : Within source turns cs) :
    Mirrors source (value source floor turns) cs d d
      (outcome (Literal.value (Literal.maxDepth - d) cs)) := by
  induction turns generalizing cs d with
  | zero => exact h.turns_ne_zero.elim
  | succ turns ih =>
      rw [value]
      have htrim := h.of_suffix (Text.trimStart_suffix cs)
      refine (mirrors_skipSpace h).andThen fun _ => ?_
      cases hcons : Text.trimStart cs with
      | nil =>
          rw [Literal.outcome_value_nil hcons]
          exact (mirrors_peek List.nil_suffix).andThen fun _ => mirrors_refuse
      | cons c next =>
          rw [hcons] at htrim
          rw [Literal.outcome_value_cons hcons]
          refine (mirrors_peek htrim.suffix).andThen fun _ => ?_
          -- What is inside of a container stands after its bracket and is one level deeper.
          have hvalue : d < Literal.maxDepth → ∀ cs, Within source turns cs →
              Mirrors source (value source floor turns) cs (d + 1) (d + 1)
                (outcome (Literal.value (Literal.maxDepth - (d + 1)) cs)) :=
            fun hd cs hcs => ih (by omega) hd hcs
          have hnext : next.length < turns := Nat.lt_of_succ_lt_succ htrim.length_lt
          rw [List.head?_cons]
          dsimp only
          split_ifs
          · exact mirrors_object hvalue hfloor htrim hnext
          · exact mirrors_array hvalue hfloor htrim hnext
          · exact (mirrors_string htrim).map Value.string
          · exact mirrors_number htrim
          · exact mirrors_keyword _ htrim
          · exact mirrors_refuse

end Cursor

end DocShell
