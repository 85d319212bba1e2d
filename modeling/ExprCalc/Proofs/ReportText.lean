import ExprCalc.Report
import ExprCalc.Proofs.JsonReading

/-!
# Reports as JSON text

The text printed for a report is a document for the object of its members and for nothing else. The
report is found again in it, field by field (`ofText_print`), so no two reports are printed as the
same text.
-/

namespace ExprCalc

namespace Json

def asBool : Json → Option Bool
  | .bool b => some b
  | _ => none

def asInt : Json → Option Int
  | .int n => some n
  | _ => none

def asString : Json → Option String
  | .string s => some s
  | _ => none

def asTexts : Json → Option (List String)
  | .array items => items.mapM asString
  | _ => none

@[simp] theorem asBool_bool (b : Bool) : asBool (.bool b) = some b := rfl

@[simp] theorem asString_string (s : String) : asString (.string s) = some s := rfl

theorem asTexts_texts (ss : List String) : asTexts (Report.texts ss) = some ss := by
  unfold Report.texts asTexts
  induction ss with
  | nil => rfl
  | cons s ss ih => simp_all

end Json

namespace Report

/-- The fields of a report under their keys, in the order of the keys. A field that does not apply
has no value. -/
def fields (r : Report) : List (String × Option Json) :=
  [("ok", some (.bool r.ok)), ("expression", some (.string r.expression)),
    ("result", r.result.map .int), ("tokens", r.tokens.map texts),
    ("postfix", r.postfixForm.map texts), ("error", r.error.map .string),
    ("error_code", r.errorCode.map .string)]

/-- The fields that have a value. -/
def present (fs : List (String × Option Json)) : List (String × Json) :=
  fs.filterMap fun f => f.2.map (f.1, ·)

/-- The report that has these members; what is missing does not apply. -/
def ofMembers (ms : List (String × Json)) : Option Report := do
  let ok ← (ms.lookup "ok").bind Json.asBool
  let expression ← (ms.lookup "expression").bind Json.asString
  return {
    ok, expression
    result := (ms.lookup "result").bind Json.asInt
    tokens := (ms.lookup "tokens").bind Json.asTexts
    postfixForm := (ms.lookup "postfix").bind Json.asTexts
    error := (ms.lookup "error").bind Json.asString
    errorCode := (ms.lookup "error_code").bind Json.asString }

/-- The report that a JSON text describes. -/
def ofText (text : String) : Option Report :=
  match Json.decode text.toList with
  | some (.object ms) => ofMembers ms
  | _ => none

/-! ### Members -/

theorem present_cons (key : String) (value : Option Json) (fs : List (String × Option Json)) :
    present ((key, value) :: fs) = member key value ++ present fs := by
  cases value <;> rfl

theorem keys_present_sublist (fs : List (String × Option Json)) :
    ((present fs).map Prod.fst).Sublist (fs.map Prod.fst) := by
  induction fs with
  | nil => exact .slnil
  | cons f fs ih =>
    obtain ⟨key, value⟩ := f
    rw [present_cons, List.map_append, List.map_cons]
    cases value with
    | none => exact ih.cons key
    | some v => exact ih.cons_cons key

theorem members_eq_present (r : Report) : r.members = present r.fields := by
  simp only [members, fields, present_cons, List.append_assoc]
  simp [member, present]

theorem lookup_present {fs : List (String × Option Json)} (h : (fs.map Prod.fst).Nodup)
    (key : String) : (present fs).lookup key = (fs.lookup key).join := by
  induction fs with
  | nil => rfl
  | cons f fs ih =>
    obtain ⟨key', value⟩ := f
    obtain ⟨hnot, hnd⟩ : key' ∉ fs.map Prod.fst ∧ (fs.map Prod.fst).Nodup :=
      List.nodup_cons.1 h
    rw [present_cons, List.lookup_append, ih hnd, List.lookup_cons]
    by_cases hkey : key = key'
    · subst hkey
      have hnone : fs.lookup key = none := List.lookup_eq_none_iff.2 fun f hf =>
        bne_iff_ne.2 fun heq => hnot (heq.symm ▸ List.mem_map_of_mem hf)
      cases value <;> simp [member, hnone]
    · have hne : (key == key') = false := beq_false_of_ne hkey
      cases value <;> simp [member, hne, List.lookup_cons]

theorem nodup_keys_fields (r : Report) : (r.fields.map Prod.fst).Nodup := by
  simp [fields]

theorem nodup_keys_members (r : Report) : (r.members.map Prod.fst).Nodup := by
  rw [members_eq_present]
  exact r.nodup_keys_fields.sublist (keys_present_sublist r.fields)

theorem lookup_members (r : Report) (key : String) :
    r.members.lookup key = (r.fields.lookup key).join := by
  rw [members_eq_present, lookup_present r.nodup_keys_fields]

theorem ofMembers_members (r : Report) : ofMembers r.members = some r := by
  have hint (n : Option Int) : (n.map Json.int).bind Json.asInt = n := by
    cases n <;> rfl
  have hstring (s : Option String) : (s.map Json.string).bind Json.asString = s := by
    cases s <;> rfl
  have htexts (ss : Option (List String)) : (ss.map texts).bind Json.asTexts = ss := by
    cases ss with
    | none => rfl
    | some ss => exact Json.asTexts_texts ss
  simp [ofMembers, lookup_members, fields, List.lookup_cons, hint, hstring, htexts]

/-! ### Text -/

theorem isDocument_print (r : Report) (showPostfix : Bool) :
    Json.IsDocument (.object r.members) (r.print .json showPostfix).toList := by
  rw [print, String.toList_append]
  exact Json.isDocument_render _ fun c hc => by simp_all [Json.isGap]

theorem ofText_print (r : Report) (showPostfix : Bool) :
    ofText (r.print .json showPostfix) = some r := by
  rw [ofText, Json.decode_eq_some_iff.2 (r.isDocument_print showPostfix)]
  exact ofMembers_members r

/-- What is printed as JSON is a document for the fields that have a value, in their order and under
different keys, and for nothing else. The report is found again in it, and it is printed for no other
report. -/
theorem decode_print (r : Report) (showPostfix : Bool) :
    (∀ v, Json.IsDocument v (r.print .json showPostfix).toList ↔
        v = .object (present r.fields)) ∧
      Json.decode (r.print .json showPostfix).toList = some (.object (present r.fields)) ∧
      r.members = present r.fields ∧ (r.members.map Prod.fst).Nodup ∧
      ofText (r.print .json showPostfix) = some r ∧
      ∀ r' showPostfix', r'.print .json showPostfix' = r.print .json showPostfix ↔ r' = r := by
  have hdecode : Json.decode (r.print .json showPostfix).toList =
      some (.object (present r.fields)) := by
    rw [← members_eq_present, Json.decode_eq_some_iff]
    exact r.isDocument_print showPostfix
  refine ⟨fun v => ?_, hdecode, r.members_eq_present, r.nodup_keys_members,
    r.ofText_print showPostfix, fun r' showPostfix' => ⟨fun h => ?_, fun h => h ▸ rfl⟩⟩
  · rw [← Json.decode_eq_some_iff, hdecode, Option.some_inj, eq_comm]
  · have hr' := r'.ofText_print showPostfix'
    rw [h, r.ofText_print showPostfix] at hr'
    exact (Option.some.inj hr').symm

example : ({ ok := false, expression := "\"\\\n", result := some (-5), tokens := some [] } :
    Report).print .json false = "\n".intercalate
      ["\x7b", "  \"ok\": false,", "  \"expression\": \"\\\"\\\\\\n\",",
        "  \"result\": -5,", "  \"tokens\": []", "\x7d", ""] := by decide +kernel

end Report

end ExprCalc
