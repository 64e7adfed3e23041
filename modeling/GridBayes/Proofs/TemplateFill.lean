import GridBayes.Proofs.Operation
import GridBayes.Template.Format
import Mathlib.Data.List.TakeWhile

/-! Filling templates item by item. The items of a template that ends in the text are those of its beginning and of
its end, and a field with a plain name is replaced by its value. -/
namespace GridBayes.Template
open List Operation Text Except

/-! ## Items -/

variable {p : Place} {done cs name rest a b filled : List Char} {c : Char} {inner : List Char → Except Fault (List Char)}
  {fields fields' : Fields} {template value : String}

lemma scan_append (h : Item.broken ∉ p.scan a) (b : List Char) : p.scan (a ++ b) = p.scan a ++ Place.text.scan b := by
  induction a generalizing p with
  | nil =>
    cases p with
    | text => rfl
    | _ => exact absurd mem_cons_self h
  | cons c a ih =>
    rw [Place.scan, mem_append, not_or] at h
    rw [cons_append, Place.scan, Place.scan, ih h.2, append_assoc]

lemma scan_char (hopen : c ≠ '\x7b') (hc : c ≠ '\x7d') (rest : List Char) :
    Place.text.scan (c :: rest) = .char c :: Place.text.scan rest := by
  simp [Place.scan, Place.step, hopen, hc]

lemma scan_name (h : ∀ c ∈ name, c ∉ ['\x7b', '\x7d', ':', '!', '[', '.']) :
    (Place.name false done).scan (name ++ '\x7d' :: rest) =
      .field ⟨done.reverse ++ name, none, []⟩ :: Place.text.scan rest := by
  induction name generalizing done with
  | nil => simp [Place.scan, Place.step, Place.nameStep]
  | cons c name ih =>
    have hc := h c mem_cons_self
    simp only [mem_cons, not_or] at hc
    obtain ⟨h1, h2, h3, h4, h5, -⟩ := hc
    have h5' : (c == '[') = false := by simpa using h5
    rw [cons_append, Place.scan]
    simp only [Place.step, Place.nameStep, beq_iff_eq, h1, h2, h3, h4, h5', Bool.false_eq_true, if_false, nil_append]
    rw [ih fun d hd => h d (mem_cons_of_mem c hd)]
    simp

lemma scan_field (h : ∀ c ∈ name, c ∉ ['\x7b', '\x7d', ':', '!', '[', '.']) (hname : name ≠ []) (rest : List Char) :
    Place.text.scan ('\x7b' :: (name ++ '\x7d' :: rest)) = .field ⟨name, none, []⟩ :: Place.text.scan rest := by
  have hs := @scan_name [] name rest h
  cases name with
  | nil => exact absurd rfl hname
  | cons c name =>
    have hc : c ≠ '\x7b' := fun heq => h c mem_cons_self (heq ▸ mem_cons_self)
    rw [cons_append, Place.scan] at hs
    simpa [Place.scan, Place.step, hc] using hs

lemma fillItems_append (f : Item → Except Fault (List Char)) (is js : List Item) :
    fillItems f (is ++ js) = fillItems f is >>= fun first => (first ++ ·) <$> fillItems f js := by
  induction is with
  | nil => exact (id_map _).symm
  | cons i is ih =>
    rw [cons_append, fillItems, fillItems, ih]
    cases f i with
    | error e => rfl
    | ok x =>
      cases fillItems f is with
      | error e => rfl
      | ok y =>
        cases fillItems f js with
        | error e => rfl
        | ok z => exact congrArg ok (append_assoc x y z).symm

lemma fillItems_congr {f g : Item → Except Fault (List Char)} {is : List Item} (h : ∀ i ∈ is, f i = g i) :
    fillItems f is = fillItems g is := by
  induction is with
  | nil => rfl
  | cons i is ih =>
    obtain ⟨hi, hrest⟩ := forall_mem_cons.mp h
    rw [fillItems, fillItems, hi, ih hrest]

structure Fields.Same (fields fields' : Fields) : Prop where
  naming : fields.naming = fields'.naming
  values : ∀ name, fields.values.lookup name = fields'.values.lookup name

lemma filled_congr (hsame : fields.Same fields') {inner' : List Char → Except Fault (List Char)}
    (hinner : inner = inner') (i : Item) : i.filled fields inner = i.filled fields' inner' := by
  cases i with
  | char | broken => rfl
  | field f => simp only [Item.filled, fieldValue, hinner, hsame.naming, hsame.values]

lemma fill_congr {values values' : List (String × String)} (naming : Naming)
    (h : ∀ name, values.lookup name = values'.lookup name) (template : String) :
    fill ⟨naming, values⟩ template = fill ⟨naming, values'⟩ template := by
  have hsame : Fields.Same ⟨naming, values⟩ ⟨naming, values'⟩ := ⟨rfl, h⟩
  have hspec : fillSpec ⟨naming, values⟩ = fillSpec ⟨naming, values'⟩ :=
    funext fun spec => fillItems_congr fun i _ => filled_congr hsame rfl i
  unfold fill fillChars
  rw [fillItems_congr fun i _ => filled_congr hsame hspec i]

/-! ## Closed templates -/

/-- No field and no brace is open at the end. -/
def Closed (cs : List Char) : Prop :=
  Item.broken ∉ Place.text.scan cs

lemma closed_nil : Closed [] := not_mem_nil

lemma closed_char (hopen : c ≠ '\x7b') (hc : c ≠ '\x7d') (h : Closed cs) : Closed (c :: cs) := by
  unfold Closed
  rw [scan_char hopen hc]
  exact not_mem_cons_of_ne_of_not_mem (by simp) h

lemma closed_field (hm : ∀ c ∈ name, c ∉ ['\x7b', '\x7d', ':', '!', '[', '.']) (hname : name ≠ []) (h : Closed cs) :
    Closed ('\x7b' :: (name ++ '\x7d' :: cs)) := by
  unfold Closed
  rw [scan_field hm hname]
  exact not_mem_cons_of_ne_of_not_mem (by simp) h

lemma Closed.append (ha : Closed a) (hb : Closed b) : Closed (a ++ b) := by
  unfold Closed
  rw [scan_append ha, mem_append]
  exact not_or.mpr ⟨ha, hb⟩

lemma closed_text (hopen : '\x7b' ∉ cs) (hc : '\x7d' ∉ cs) : Closed cs := by
  induction cs with
  | nil => exact closed_nil
  | cons c cs ih =>
    simp only [mem_cons, not_or] at hopen hc
    exact closed_char (Ne.symm hopen.1) (Ne.symm hc.1) (ih hopen.2 hc.2)

/-- No braces. -/
def Unbraced (s : String) : Prop :=
  '\x7b' ∉ s.toList ∧ '\x7d' ∉ s.toList
deriving Decidable

lemma Unbraced.closed {s : String} (h : Unbraced s) : Closed s.toList := closed_text h.1 h.2

lemma closed_of_fillChars (h : fillChars fields inner cs = .ok filled) : Closed cs := by
  unfold Closed
  unfold fillChars at h
  generalize Place.text.scan cs = items at h
  induction items generalizing filled with
  | nil => exact not_mem_nil
  | cons i items ih =>
    obtain ⟨first, hf, h⟩ := bind_eq_ok.mp h
    obtain ⟨others, ho, -⟩ := map_eq_ok.mp h
    refine not_mem_cons_of_ne_of_not_mem ?_ (ih ho)
    rintro rfl
    cases hf

lemma Closed.fillChars_append (ha : Closed a) (b : List Char) : fillChars fields inner (a ++ b) =
    fillChars fields inner a >>= fun first => (first ++ ·) <$> fillChars fields inner b := by
  unfold fillChars
  rw [scan_append ha, fillItems_append]

lemma fill_eq_ok {filled : String} : fill fields template = .ok filled ↔
      fillChars fields (fillSpec fields) template.toList = .ok filled.toList := by
  unfold fill
  cases fillChars fields (fillSpec fields) template.toList with
  | error e => simp [Except.map]
  | ok cs =>
    simp only [Except.map, Except.ok.injEq]
    exact ⟨fun h => by rw [← h, String.toList_ofList], fun h => by rw [h, String.ofList_toList]⟩

lemma fill_append_left {a filledA : String} (ha : fill fields a = .ok filledA) (b : String) :
    fill fields (a ++ b) = (fill fields b).map (filledA ++ ·) := by
  rw [fill_eq_ok] at ha
  unfold fill
  rw [String.toList_append, (closed_of_fillChars ha).fillChars_append, ha]
  cases fillChars fields (fillSpec fields) b.toList with
  | error e => rfl
  | ok cs => exact congrArg ok (by rw [String.ofList_append, String.ofList_toList])

lemma fill_append {a b filledA filledB : String} (ha : fill fields a = .ok filledA)
    (hb : fill fields b = .ok filledB) : fill fields (a ++ b) = .ok (filledA ++ filledB) := by
  rw [fill_append_left ha, hb]
  rfl

lemma fill_append_iff {a b filled : String} (ha : Closed a.toList) : fill fields (a ++ b) = .ok filled ↔
      ∃ filledA filledB, fill fields a = .ok filledA ∧ fill fields b = .ok filledB ∧ filled = filledA ++ filledB := by
  constructor
  · intro h
    rw [fill_eq_ok, String.toList_append, ha.fillChars_append] at h
    obtain ⟨filledA, hA, h⟩ := bind_eq_ok.mp h
    obtain ⟨filledB, hB, he⟩ := map_eq_ok.mp h
    refine ⟨String.ofList filledA, String.ofList filledB, ?_, ?_, ?_⟩
    · rw [fill_eq_ok, String.toList_ofList, hA]
    · rw [fill_eq_ok, String.toList_ofList, hB]
    · rw [← String.ofList_append, he, String.ofList_toList]
  · rintro ⟨filledA, filledB, hA, hB, rfl⟩
    exact fill_append hA hB

/-! ## Text -/

lemma fillChars_char (hopen : c ≠ '\x7b') (hc : c ≠ '\x7d') :
    fillChars fields inner (c :: rest) = (c :: ·) <$> fillChars fields inner rest := by
  unfold fillChars
  rw [scan_char hopen hc]
  rfl

lemma fill_text (hopen : '\x7b' ∉ template.toList) (hc : '\x7d' ∉ template.toList) :
    fill fields template = .ok template := by
  rw [fill_eq_ok]
  generalize template.toList = cs at hopen hc
  induction cs with
  | nil => rfl
  | cons c cs ih =>
    rw [mem_cons, not_or] at hopen hc
    rw [fillChars_char (Ne.symm hopen.1) (Ne.symm hc.1), ih hopen.2 hc.2]
    rfl

lemma fill_literal (s : String)
    (h : (s.toList.all fun c => c != '\x7b' && c != '\x7d') = true) : fill fields s = .ok s := by
  have hb : ∀ c ∈ s.toList, c ≠ '\x7b' ∧ c ≠ '\x7d' := by simpa using h
  exact fill_text (fun hc => (hb _ hc).1 rfl) (fun hc => (hb _ hc).2 rfl)

/-! ## Plain fields -/

/-- The name of a field that is looked up as written: no mark that cuts a field into parts, and no number. -/
structure IsFieldName (name : List Char) : Prop where
  unmarked : ∀ c ∈ name, c ∉ ['\x7b', '\x7d', ':', '!', '[', '.']
  nonempty : name ≠ []
  noNumber : wholeNat name = .ok none

structure IsPlainName (name : List Char) : Prop where
  starts : ∃ c rest, name = c :: rest ∧ digitValue? c = none
  word : ∀ c ∈ name, isWord c = true

lemma not_mark_of_isWord (hc : isWord c = true) : c ∉ ['\x7b', '\x7d', ':', '!', '[', '.'] := by
  intro hmem
  have hm : ['\x7b', '\x7d', ':', '!', '[', '.'].all (fun d => !isWord d) = true := rfl
  have hmark := all_eq_true.mp hm c hmem
  rw [hc] at hmark
  cases hmark

lemma wholeNat_of_not_digit (h : digitValue? c = none) : wholeNat (c :: rest) = .ok none := by
  simp [wholeNat, leadingNat, h]

lemma IsPlainName.isFieldName (h : IsPlainName name) : IsFieldName name := by
  obtain ⟨c, rest, rfl, hdi⟩ := h.starts
  exact ⟨fun d hd => not_mark_of_isWord (h.word d hd), cons_ne_nil c rest, wholeNat_of_not_digit hdi⟩

lemma takeWhile_unmarked (h : ∀ c ∈ name, c ∉ ['\x7b', '\x7d', ':', '!', '[', '.']) :
    name.takeWhile (fun d => d != '.' && d != '[') = name := by
  rw [takeWhile_eq_self_iff]
  intro d hd
  have hmark := h d hd
  simp only [mem_cons, not_or] at hmark
  simp [hmark]

lemma fieldValue_named (h : IsFieldName name) : fieldValue fields name =
      match fields.values.lookup (String.ofList name) with
      | some value => .ok (.text value.toList)
      | none => .error .missingField := by
  have he : name.isEmpty = false := by simpa using h.nonempty
  unfold fieldValue
  rw [takeWhile_unmarked h.unmarked]
  simp only [h.noNumber, he, drop_length]
  cases fields.values.lookup (String.ofList name) <;> rfl

lemma isFieldName_of_filled {value : List Char} (hm : ∀ c ∈ name, c ∉ ['\x7b', '\x7d', ':', '!', '[', '.'])
    (hname : name ≠ []) (h : (Item.field ⟨name, none, []⟩).filled fields inner = .ok value) : IsFieldName name := by
  obtain ⟨subject, hs, -⟩ := bind_eq_ok.mp h
  unfold fieldValue at hs
  rw [takeWhile_unmarked hm] at hs
  obtain ⟨number, hn, hs⟩ := bind_eq_ok.mp hs
  cases number with
  | none => exact ⟨hm, hname, hn⟩
  | some n =>
    simp only [Option.isSome_some, Bool.or_true] at hs
    cases hs

lemma written_plain (cs : List Char) : (Subject.text cs).written [] = .ok cs := by
  simp [Subject.written, padding?, leadingNat, Padding.apply]

lemma fillChars_unmarked (hm : ∀ c ∈ name, c ∉ ['\x7b', '\x7d', ':', '!', '[', '.']) (hname : name ≠ []) :
    fillChars fields inner ('\x7b' :: (name ++ '\x7d' :: rest)) =
      (Item.field ⟨name, none, []⟩).filled fields inner >>= fun value =>
        (value ++ ·) <$> fillChars fields inner rest := by
  unfold fillChars
  rw [scan_field hm hname]
  rfl

lemma fillChars_named (h : IsFieldName name) : fillChars fields inner ('\x7b' :: (name ++ '\x7d' :: rest)) =
      match fields.values.lookup (String.ofList name) with
      | some value => (value.toList ++ ·) <$> fillChars fields inner rest
      | none => .error .missingField := by
  rw [fillChars_unmarked h.unmarked h.nonempty, Item.filled, fieldValue_named h]
  cases fields.values.lookup (String.ofList name) with
  | none => rfl
  | some value => simp only [bind, Except.bind, convert, contains_nil, Bool.false_eq_true, if_false, written_plain]

lemma fill_field (h : IsPlainName name) (hv : fields.values.lookup (String.ofList name) = some value) :
    fill fields ("\x7b" ++ String.ofList name ++ "\x7d") = .ok value := by
  have hc : ("\x7b" ++ String.ofList name ++ "\x7d").toList = '\x7b' :: (name ++ ['\x7d']) := by simp
  rw [fill_eq_ok, hc, fillChars_named h.isFieldName, hv]
  show ok (value.toList ++ []) = _
  rw [append_nil]

/-- An assignment to a plain field: the field is replaced, and what follows the equals sign is filled alone. -/
lemma fillNamed_assignment {values : List (String × String)} {place code : String} (h : IsPlainName name)
    (hp : values.lookup (String.ofList name) = some place) :
    fillNamed values ("\x7b" ++ String.ofList name ++ "\x7d" ++ " = " ++ code) =
      (fillNamed values code).map (place ++ " = " ++ ·) :=
  fill_append_left (fill_append (fill_field h hp) (fill_literal " = " rfl)) code

lemma fill_join {sep : String} (hopen : '\x7b' ∉ sep.toList) (hc : '\x7d' ∉ sep.toList)
    {templates filled : List String} (h : Forall₂ (fun t s => fill fields t = .ok s) templates filled) :
    fill fields (join sep templates) = .ok (join sep filled) := by
  induction h with
  | nil => exact fill_text (by simp [join]) (by simp [join])
  | @cons t s templates filled ht hrest ih =>
    cases hrest with
    | nil => exact ht
    | @cons t' s' templates filled _ _ =>
      have hcons (x y : String) (rest : List String) :
          join sep (x :: y :: rest) = x ++ (sep ++ join sep (y :: rest)) := by
        rw [join, String.intercalate_cons_cons, String.append_assoc]
        rfl
      rw [hcons, hcons]
      exact fill_append ht (fill_append (fill_text hopen hc) ih)

/-! ## Why a template is refused -/

/-- Why a template can be refused. -/
def faults : List Fault :=
  [.badTemplate, .missingPart, .partOutOfRange, .partByName, .badArgument, .numberedField, .missingField]

lemma kind_of_mem_faults {e : Fault} (h : e ∈ faults) : e.kind ≠ .lookup := by
  have hall : (faults.all fun e => e.kind != .lookup) = true := by decide
  exact bne_iff_ne.mp (all_eq_true.mp hall e h)

lemma refusesOnly_named (name : String) (v : Subject) : RefusesOnly (· ∈ faults) (v.named name) := by
  fun_cases Subject.named name v <;> simp [faults]

lemma refusesOnly_position (n : Nat) (v : Subject) : RefusesOnly (· ∈ faults) (v.position n) := by
  fun_cases Subject.position n v <;> simp [faults]

lemma refusesOnly_written (spec : List Char) (v : Subject) : RefusesOnly (· ∈ faults) (v.written spec) := by
  fun_cases Subject.written spec v <;> simp [faults]

lemma refusesOnly_convert (mark : Option Char) (v : Subject) : RefusesOnly (· ∈ faults) (convert mark v) := by
  fun_cases convert mark v <;> simp [faults]

lemma refusesOnly_wholeNat (cs : List Char) : RefusesOnly (· ∈ faults) (wholeNat cs) := by
  fun_cases wholeNat cs <;> simp [faults]

lemma refusesOnly_follow (fuel : Nat) (v : Subject) (cs : List Char) :
    RefusesOnly (· ∈ faults) (follow fuel v cs) := by
  fun_induction follow fuel v cs with
  | case1 | case2 | case3 | case6 | case7 => simp [faults]
  | case4 fuel v rest name _ ih => exact (refusesOnly_named _ v).bind ih
  | case5 fuel v rest key after _ ih =>
    refine (refusesOnly_wholeNat key).bind fun number => ?_
    cases number with
    | some n => exact (refusesOnly_position n v).bind ih
    | none =>
      refine refusesOnly_error.mpr ?_
      split <;> simp [faults]

lemma refusesOnly_fieldValue (fields : Fields) (name : List Char) :
    RefusesOnly (· ∈ faults) (fieldValue fields name) := by
  refine (refusesOnly_wholeNat _).bind fun number => ?_
  by_cases hn : ((name.takeWhile fun c => c != '.' && c != '[').isEmpty || number.isSome) = true
  · rw [if_pos hn]
    refine refusesOnly_error.mpr ?_
    cases fields.naming <;> simp [faults]
  · rw [if_neg hn]
    split
    · exact refusesOnly_error.mpr (by simp [faults])
    · exact refusesOnly_follow _ _ _

lemma refusesOnly_filled (fields : Fields) (hi : ∀ spec, RefusesOnly (· ∈ faults) (inner spec)) (i : Item) :
    RefusesOnly (· ∈ faults) (i.filled fields inner) := by
  cases i with
  | char | broken => simp [Item.filled, faults]
  | field f =>
    refine (refusesOnly_fieldValue fields _).bind fun value => ?_
    refine (refusesOnly_convert _ value).bind fun shown => ?_
    split
    · exact (hi _).bind fun spec => refusesOnly_written spec shown
    · exact refusesOnly_written f.spec shown

lemma refusesOnly_fillChars (fields : Fields) (hi : ∀ spec, RefusesOnly (· ∈ faults) (inner spec)) (cs : List Char) :
    RefusesOnly (· ∈ faults) (fillChars fields inner cs) := by
  unfold fillChars
  generalize Place.text.scan cs = items
  induction items with
  | nil => simp [fillItems]
  | cons i items ih => exact (refusesOnly_filled fields hi i).bind fun first => ih.map _

lemma refusesOnly_fillNamed (values : List (String × String)) (template : String) :
    RefusesOnly (· ∈ faults) (fillNamed values template) :=
  (refusesOnly_fillChars _ (refusesOnly_fillChars _ fun _ => by simp [faults]) _).map _

end GridBayes.Template
