import DocShell.Proofs.Literal.Numerals
import DocShell.Proofs.Literal.Strings
import DocShell.Proofs.Result

set_option autoImplicit false

/-! # Where readers stop

A reader leaves a tail of the text it was given, and if it refuses the text, the fault names a
tail of it too. `StaysIn` says both at once, so that it passes from the parts of a reader to the
whole; there is one lemma for each reader. The place of a fault is counted in bytes, and since a
tail begins between two characters, so does every place that is reported.

A reader of literals gives reasons of its own kind (`Reason.isOfLiteral`). The reasons of the
later stages, such as a wrong number of arguments, cannot come from a literal.
-/

namespace DocShell

variable {α β : Type} {cs ds rest source : List Char}

/-! ## The reasons of readers -/

/-- Whether a reader of literals can give the reason. The others belong to the argument list, the
form of the command, the number of its arguments, and to hosts. -/
def Reason.isOfLiteral : Reason → Bool
  | unbalanced _ | missing _ | emptyArgument | blankQuery | noCommand | tooFewArguments _ _ _
  | tooManyArguments _ _ _ | stated _ => false
  | _ => true

/-- The fault has a place in the text and a reason that readers of literals give. -/
def Fault.IsIn (source : List Char) (fault : Fault) : Prop :=
  fault.rest <:+ source ∧ fault.reason.isOfLiteral = true

theorem ObjectId.isOfLiteral_of_ofHex {hex : String} {reason : Reason}
    (h : ofHex hex = .error reason) : reason.isOfLiteral = true := by
  unfold ofHex at h
  split_ifs at h
  · obtain rfl := Except.error.inj h
    rfl
  · obtain rfl := Except.error.inj h
    rfl

/-! ## Readers that stay in their text -/

/-- What was left of the text, or the place where it was refused, is a tail of the text. -/
def StaysIn (source : List Char) : Except Fault (α × List Char) → Prop
  | .ok (_, rest) => rest <:+ source
  | .error fault => fault.IsIn source

@[simp] theorem staysIn_ok {a : α} :
    StaysIn source (.ok (a, rest) : Except Fault (α × List Char)) ↔ rest <:+ source := Iff.rfl

namespace StaysIn

variable {result : Except Fault (α × List Char)}

theorem mono (h : StaysIn ds result) (hds : ds <:+ cs) : StaysIn cs result := by
  cases result with
  | error fault => exact ⟨h.1.trans hds, h.2⟩
  | ok p => exact List.IsSuffix.trans h hds

theorem map (h : StaysIn source result) (f : α → β) :
    StaysIn source (result.map (Prod.map f id)) := by
  cases result with
  | error fault => exact h
  | ok p => exact h

/-- A reader that goes on with what another one left stays in the text if both do. -/
theorem outcome_bind {result : Except Fault (Parsed α ds)}
    {next : Parsed α ds → Except Fault (Parsed β cs)} (h : StaysIn source (outcome result))
    (hnext : ∀ p, p.rest <:+ source → StaysIn source (outcome (next p))) :
    StaysIn source (outcome (result >>= next)) := by
  cases result with
  | error fault => exact h
  | ok p => exact hnext p h

end StaysIn

/-! ## Readers in general -/

namespace Reader

theorem staysIn_expect (wanted : Char) (cs : List Char) :
    StaysIn cs (outcome (expect wanted cs)) := by
  unfold expect
  split
  · exact ⟨List.nil_suffix, rfl⟩
  · rename_i c rest h
    split_ifs with hc
    · exact Text.suffix_of_trimStart h
    · exact ⟨Text.cons_suffix_of_trimStart h, rfl⟩

theorem staysIn_items (container : Container) {item : Reader α}
    (hitem : ∀ cs, StaysIn cs (outcome (item cs))) (cs : List Char) :
    StaysIn cs (outcome (items container item cs)) := by
  -- Each further item begins later in the text.
  induction hn : cs.length using Nat.strong_induction_on generalizing cs with
  | _ n ih =>
      have hfirst := hitem cs
      rw [items]
      cases hitem' : item cs with
      | error fault =>
          rw [hitem'] at hfirst
          exact hfirst
      | ok first =>
          rw [hitem', outcome_ok, staysIn_ok] at hfirst
          dsimp only
          split
          · exact ⟨List.nil_suffix, rfl⟩
          · rename_i c next h
            have hcons : c :: next <:+ cs := (Text.cons_suffix_of_trimStart h).trans hfirst
            have hnext : next <:+ cs := (List.suffix_cons c next).trans hcons
            split_ifs with hcomma hclosed hclosing
            · exact ⟨(Text.trimStart_suffix next).trans hnext, rfl⟩
            · have hshorter : next.length < n := by
                have hlength := hcons.length_le
                rw [List.length_cons] at hlength
                omega
              have hmore := (ih next.length hshorter next rfl).mono hnext
              cases hitems : items container item next with
              | error fault =>
                  rw [hitems] at hmore
                  exact hmore
              | ok more =>
                  rw [hitems] at hmore
                  exact hmore
            · exact hnext
            · exact ⟨hcons, rfl⟩

theorem staysIn_contents (container : Container) {item : Reader α}
    (hitem : ∀ cs, StaysIn cs (outcome (item cs))) (cs : List Char) :
    StaysIn cs (outcome (contents container item cs)) := by
  unfold contents
  split
  · exact staysIn_items container hitem cs
  · rename_i c rest h
    split_ifs
    · exact Text.suffix_of_trimStart h
    · exact staysIn_items container hitem cs

end Reader

/-! ## Strings, keys and numbers -/

namespace Quoted

theorem staysIn_byteEscape (cs : List Char) : StaysIn cs (byteEscape cs) := by
  unfold byteEscape
  split
  · exact ⟨List.suffix_rfl, rfl⟩
  · exact List.drop_suffix 2 cs

theorem staysIn_codeEscape (cs : List Char) : StaysIn cs (codeEscape cs) := by
  unfold codeEscape
  split
  · exact ⟨List.suffix_rfl, rfl⟩
  · split_ifs
    · split
      · rename_i ds hds
        have hds' : ds <:+ cs :=
          ((List.suffix_cons 'u' ds).trans (List.suffix_cons '\\' _)).trans
            (hds ▸ List.drop_suffix 4 cs)
        split
        · exact ⟨hds', rfl⟩
        · split_ifs
          · exact (List.drop_suffix 4 ds).trans hds'
          · exact ⟨List.suffix_rfl, rfl⟩
      · exact ⟨List.suffix_rfl, rfl⟩
    · exact ⟨List.suffix_rfl, rfl⟩
    · exact List.drop_suffix 4 cs

theorem afterReturn_suffix (cs : List Char) : afterReturn cs <:+ cs := by
  unfold afterReturn
  split
  · exact List.suffix_cons _ _
  · exact List.suffix_rfl

theorem staysIn_escape {opening : List Char} (h : cs <:+ opening) :
    StaysIn opening (outcome (escape opening cs)) := by
  cases cs with
  | nil => exact ⟨List.suffix_rfl, rfl⟩
  | cons c cs =>
      have hcs : cs <:+ opening := (List.suffix_cons c cs).trans h
      rw [outcome_escape_cons]
      split_ifs
      · exact ((staysIn_byteEscape cs).mono hcs).map some
      · exact ((staysIn_codeEscape cs).mono hcs).map some
      · exact hcs
      · exact (afterReturn_suffix cs).trans hcs
      · exact hcs

theorem staysIn_body {opening : List Char} (quote : Char) (h : cs <:+ opening) :
    StaysIn opening (outcome (body quote opening cs)) := by
  induction hn : cs.length using Nat.strong_induction_on generalizing cs with
  | _ n ih =>
      cases cs with
      | nil =>
          rw [body]
          exact ⟨List.suffix_rfl, rfl⟩
      | cons c cs =>
          have hcs : cs <:+ opening := (List.suffix_cons c cs).trans h
          rw [List.length_cons] at hn
          rw [outcome_body_cons]
          split_ifs
          · exact hcs
          · exact ⟨List.suffix_rfl, rfl⟩
          · -- The rest of the string begins after the escape, so later than the backslash.
            cases hescape : outcome (escape opening cs) with
            | error fault =>
                have hfault := staysIn_escape hcs
                rw [hescape] at hfault
                exact hfault
            | ok p =>
                obtain ⟨spelled, after⟩ := p
                have hafter := staysIn_escape hcs
                have hshorter := length_lt_of_outcome hescape
                rw [hescape] at hafter
                exact (ih after.length (by omega) hafter rfl).map _
          · exact (ih cs.length (by omega) hcs rfl).map _

theorem staysIn_text (quote : Char) (cs : List Char) :
    StaysIn (quote :: cs) (outcome (text quote cs)) := by
  have hbody := staysIn_body quote (List.suffix_cons quote cs)
  rw [text, outcome_map_map_within]
  exact hbody.map String.ofList

end Quoted

theorem Word.after_suffix (cs : List Char) : after cs <:+ cs :=
  List.dropWhile_suffix _

theorem Key.staysIn_read (cs : List Char) : StaysIn cs (outcome (Key.read cs)) := by
  unfold Key.read
  split
  · exact ⟨List.nil_suffix, rfl⟩
  · rename_i c rest h
    have hcons : c :: rest <:+ cs := Text.cons_suffix_of_trimStart h
    dsimp only
    split_ifs
    · rw [outcome_map_within]
      exact (Quoted.staysIn_text c rest).mono hcons
    · exact (Word.after_suffix (c :: rest)).trans hcons
    · exact ⟨hcons, rfl⟩

theorem Numeral.staysIn_read (cs : List Char) : StaysIn cs (outcome (Numeral.read cs)) := by
  unfold Numeral.read
  split
  · exact ⟨List.suffix_rfl, rfl⟩
  · rename_i n rest hscan
    obtain ⟨t, -, rfl⟩ := spelled_of_scan hscan
    split
    · exact List.suffix_append t rest
    · exact ⟨List.suffix_rfl, rfl⟩

/-! ## Literals -/

namespace Literal

/-- The name before the parenthesis belongs to the text as well. -/
theorem staysIn_identifierCall {start : List Char} (h : cs <:+ start) :
    StaysIn start (outcome (identifierCall start cs)) := by
  unfold identifierCall
  refine StaysIn.outcome_bind ((Reader.staysIn_expect '(' cs).mono h) fun opened hopened => ?_
  split
  · exact ⟨List.nil_suffix, rfl⟩
  · rename_i c rest htrim
    have hcons : c :: rest <:+ start := (Text.cons_suffix_of_trimStart htrim).trans hopened
    split_ifs
    · refine StaysIn.outcome_bind ((Quoted.staysIn_text c rest).mono hcons) fun hex hhex => ?_
      refine StaysIn.outcome_bind ((Reader.staysIn_expect ')' hex.rest).mono hhex)
        fun closed hclosed => ?_
      split
      · rename_i reason hreason
        exact ⟨List.suffix_rfl, ObjectId.isOfLiteral_of_ofHex hreason⟩
      · exact hclosed
    · exact ⟨hcons, rfl⟩

theorem staysIn_construction (cs : List Char) : StaysIn cs (outcome (construction cs)) := by
  unfold construction
  have hstart : Text.trimStart cs <:+ cs := Text.trimStart_suffix cs
  dsimp only
  split_ifs
  · rw [outcome_map_within]
    exact (staysIn_identifierCall (Word.after_suffix _)).mono hstart
  · exact ⟨hstart, rfl⟩

theorem staysIn_keyword (h : (Word.after cs).length < cs.length) :
    StaysIn cs (outcome (keyword cs h)) := by
  have hafter : Word.after cs <:+ cs := Word.after_suffix cs
  unfold keyword
  dsimp only
  split_ifs
  · exact hafter
  · exact hafter
  · exact hafter
  · rw [outcome_map_within]
    exact staysIn_identifierCall hafter
  · rw [outcome_map_within]
    exact (staysIn_construction (Word.after cs)).mono hafter
  · exact ⟨List.suffix_rfl, rfl⟩

theorem staysIn_field {value : Reader Value} (hvalue : ∀ cs, StaysIn cs (outcome (value cs)))
    (cs : List Char) : StaysIn cs (outcome (field value cs)) := by
  unfold field
  refine StaysIn.outcome_bind (Key.staysIn_read cs) fun key hkey => ?_
  refine StaysIn.outcome_bind ((Reader.staysIn_expect ':' key.rest).mono hkey)
    fun colon hcolon => ?_
  exact StaysIn.outcome_bind ((hvalue colon.rest).mono hcolon) fun v hv => hv

theorem staysIn_value (room : Nat) (cs : List Char) : StaysIn cs (outcome (value room cs)) := by
  induction room using Nat.strong_induction_on generalizing cs with
  | _ room ih =>
      cases htrim : Text.trimStart cs with
      | nil =>
          rw [outcome_value_nil htrim]
          exact ⟨List.nil_suffix, rfl⟩
      | cons c next =>
          have hcons : c :: next <:+ cs := Text.cons_suffix_of_trimStart htrim
          have hnext : next <:+ cs := Text.suffix_of_trimStart htrim
          rw [outcome_value_cons htrim]
          split_ifs
          · cases room with
            | zero => exact ⟨hnext, rfl⟩
            | succ room =>
                have hfield := staysIn_field (ih room (Nat.lt_succ_self room))
                exact ((Reader.staysIn_contents .object hfield next).mono hnext).map Value.ofPairs
          · cases room with
            | zero => exact ⟨hnext, rfl⟩
            | succ room =>
                have hvalue := ih room (Nat.lt_succ_self room)
                exact ((Reader.staysIn_contents .array hvalue next).mono hnext).map Value.array
          · exact ((Quoted.staysIn_text c next).mono hcons).map Value.string
          · exact (Numeral.staysIn_read (c :: next)).mono hcons
          · exact (staysIn_keyword _).mono hcons
          · exact ⟨hcons, rfl⟩

theorem isIn_of_whole {fault : Fault} (h : whole cs = .error fault) : fault.IsIn cs := by
  have hvalue := staysIn_value maxDepth cs
  unfold whole at h
  cases hp : value maxDepth cs with
  | error fault' =>
      rw [hp] at h hvalue
      obtain rfl := Except.error.inj h
      exact hvalue
  | ok p =>
      rw [hp] at h hvalue
      dsimp only at h
      split at h
      · contradiction
      · rename_i c rest htrim
        obtain rfl := Except.error.inj h
        exact ⟨(Text.cons_suffix_of_trimStart htrim).trans hvalue, rfl⟩

/-- A text that is refused is refused at one of its places, for a reason of a literal. -/
theorem isBoundary_of_parse {t : String} {e : SyntaxError} (h : parse t = .error e) :
    e.reason.isOfLiteral = true ∧ ∃ n, e.offset = some n ∧ Text.IsBoundary t.toList n := by
  unfold parse at h
  dsimp only at h
  split_ifs at h
  obtain ⟨fault, hwhole, rfl⟩ := Except.mapError_eq_error_iff.mp h
  obtain ⟨hrest, hreason⟩ := isIn_of_whole hwhole
  exact ⟨hreason, _, rfl, Text.isBoundary_offsetOf hrest⟩

end Literal

end DocShell
