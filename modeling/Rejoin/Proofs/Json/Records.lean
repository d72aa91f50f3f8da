import Mathlib.Data.List.Nodup
import Rejoin.Json.Shapes

/-! Records read field by field. Each field has a place of its own in the record, so an object is read
the same in whatever order its members stand, and an array is read as the object that names its items
in order. -/

namespace Rejoin

namespace Json

theorem bind_eq_ok_iff {Value Result : Type} {decoded : Decoded Value}
    {next : Value → Decoded Result} {result : Result} :
    decoded >>= next = .ok result ↔ ∃ value, decoded = .ok value ∧ next value = .ok result := by
  cases decoded with
  | error => exact ⟨nofun, nofun⟩
  | ok value =>
      refine ⟨fun h => ⟨value, rfl, h⟩, ?_⟩
      rintro ⟨_, ⟨⟩, h⟩
      exact h

/-- A value that does not end before the text says so. -/
inductive Whole : Json → Prop where
  | null : Whole .null
  | boolean (value : Bool) : Whole (.boolean value)
  | number (value : Number) : Whole (.number value)
  | text (content : Option String) : Whole (.text content)
  | array {items : List Json} (h : ∀ item ∈ items, Whole item) : Whole (.array items .closed)
  | object {members : List (Option String × Json)} (h : ∀ member ∈ members, Whole member.2) :
      Whole (.object members .closed)

theorem skipItems?_eq_none {items : List Json} (h : ∀ item ∈ items, item.skip? = none) :
    skipItems? items = none := by
  induction items with
  | nil => rfl
  | cons item items ih =>
      obtain ⟨hitem, hitems⟩ := List.forall_mem_cons.1 h
      rw [skipItems?, hitem, ih hitems]
      rfl

theorem skipMembers?_eq_none {members : List (Option String × Json)}
    (h : ∀ member ∈ members, member.2.skip? = none) : skipMembers? members = none := by
  induction members with
  | nil => rfl
  | cons member members ih =>
      obtain ⟨hmember, hmembers⟩ := List.forall_mem_cons.1 h
      rw [skipMembers?, hmember, ih hmembers]
      rfl

/-- A whole value can be passed over. -/
theorem Whole.skip?_eq_none {found : Json} (h : found.Whole) : found.skip? = none := by
  induction h with
  | null | boolean | number | text => rfl
  | array _ ih =>
      rw [skip?, skipItems?_eq_none ih]
      rfl
  | object _ ih =>
      rw [skip?, skipMembers?_eq_none ih]
      rfl

/-- The fields of a record: what each is called, how its values are decoded, and where in the record
they are kept. No field is kept in the place of another. -/
structure Form (Record : Type) where
  Field : Type
  all : List Field
  Value : Field → Type
  name : Field → String
  decode : (field : Field) → Json → Decoded (Value field)
  get : (field : Field) → Record → Option (Value field)
  set : (field : Field) → Value field → Record → Record
  mem_all : ∀ field, field ∈ all
  nodup_all : all.Nodup
  name_injective : ∀ {field other}, name field = name other → field = other
  get_set : ∀ field value record, get field (set field value record) = some value
  get_set_of_ne : ∀ {field other}, other ≠ field → ∀ value record,
    get other (set field value record) = get other record

namespace Form

variable {Record : Type} (form : Form Record)

def slot (field : form.Field) : Slot Record where
  name := form.name field
  isFilled record := (form.get field record).isSome
  fill found record := do
    let value ← form.decode field found
    return form.set field value record

def slots : List (Slot Record) := form.all.map form.slot

/-- An object that fills a record: its keys are texts, those of the fields stand there for values of
theirs and find their places empty, and what stands behind any other key can be passed over. -/
inductive Reads : Record → List (Option String × Json) → Record → Prop where
  | nil {record : Record} : Reads record [] record
  | known {record last : Record} {members : List (Option String × Json)} {field : form.Field}
      {found : Json} {value : form.Value field} (hempty : form.get field record = none)
      (hvalue : form.decode field found = .ok value)
      (h : Reads (form.set field value record) members last) :
      Reads record ((some (form.name field), found) :: members) last
  | unknown {record last : Record} {members : List (Option String × Json)} {key : String}
      {found : Json} (hkey : ∀ field, form.name field ≠ key) (hfound : found.skip? = none)
      (h : Reads record members last) : Reads record ((some key, found) :: members) last

variable {form} {record last : Record} {members : List (Option String × Json)} {ending : Ending}
  {found : Json} {key : String}

/-- A field is found by its name. -/
theorem find?_slots (field : form.Field) :
    form.slots.find? (fun slot => slot.name = form.name field) = some (form.slot field) := by
  cases hfind : form.slots.find? fun slot => slot.name = form.name field with
  | none =>
      have hmem : form.slot field ∈ form.slots := List.mem_map_of_mem (form.mem_all field)
      exact absurd (decide_eq_true rfl) (List.find?_eq_none.1 hfind _ hmem)
  | some slot =>
      obtain ⟨other, -, rfl⟩ := List.mem_map.1 (List.mem_of_find?_eq_some hfind)
      have hfound := List.find?_some hfind
      have hname : form.name other = form.name field := of_decide_eq_true hfound
      exact congrArg (fun field => some (form.slot field)) (form.name_injective hname)

theorem find?_slots_of_unknown (hkey : ∀ field, form.name field ≠ key) :
    form.slots.find? (fun slot => slot.name = key) = none := by
  rw [List.find?_eq_none]
  intro slot hslot hname
  obtain ⟨field, -, rfl⟩ := List.mem_map.1 hslot
  exact hkey field (of_decide_eq_true hname)

/-! ### Objects -/

theorem fillMembers_known (field : form.Field) :
    fillMembers form.slots record ((some (form.name field), found) :: members) ending =
      if (form.get field record).isSome then .error .shape
      else form.decode field found >>= fun value =>
        fillMembers form.slots (form.set field value record) members ending := by
  rw [fillMembers.eq_def]
  simp only [find?_slots]
  change (if (form.get field record).isSome then _ else _) = _
  split
  · rfl
  · change ((form.decode field found >>= _) >>= _) = _
    cases form.decode field found <;> rfl

theorem fillMembers_unknown (hkey : ∀ field, form.name field ≠ key) :
    fillMembers form.slots record ((some key, found) :: members) ending =
      found.skip?.elim (fillMembers form.slots record members ending) .error := by
  rw [fillMembers.eq_def]
  simp only [find?_slots_of_unknown hkey]
  cases found.skip? <;> rfl

/-- A member that stops nobody is passed over or filled in. -/
theorem Reads.of_fillMembers (h : fillMembers form.slots record members ending = .ok last) :
    form.Reads record members last := by
  induction members generalizing record with
  | nil =>
      cases ending with
      | closed =>
          cases h
          exact .nil
      | cut => cases h
  | cons member members ih =>
      obtain ⟨_ | key, found⟩ := member
      · cases h
      by_cases hkey : ∃ field, form.name field = key
      · obtain ⟨field, rfl⟩ := hkey
        rw [fillMembers_known] at h
        split at h
        case isTrue => cases h
        case isFalse hempty =>
            obtain ⟨value, hvalue, hrest⟩ := bind_eq_ok_iff.1 h
            exact .known (Option.not_isSome_iff_eq_none.1 hempty) hvalue (ih hrest)
      · have hkey := not_exists.1 hkey
        cases hfound : found.skip? with
        | some problem =>
            rw [fillMembers_unknown hkey, hfound] at h
            cases h
        | none =>
            rw [fillMembers_unknown hkey, hfound] at h
            exact .unknown hkey hfound (ih h)

theorem Reads.fillMembers_eq (h : form.Reads record members last) :
    fillMembers form.slots record members .closed = .ok last := by
  induction h with
  | nil => rfl
  | known hempty hvalue _ ih =>
      rw [fillMembers_known, hempty, hvalue]
      exact ih
  | unknown hkey hfound _ ih =>
      rw [fillMembers_unknown hkey, hfound]
      exact ih

/-! ### What an object gives to each field -/

/-- A field that has its value is not named again. -/
theorem Reads.absent_of_filled (h : form.Reads record members last) {field : form.Field}
    (hfilled : (form.get field record).isSome) :
    some (form.name field) ∉ members.map Prod.fst := by
  induction h with
  | nil => exact List.not_mem_nil
  | @known _ _ _ other _ value hempty _ _ ih =>
      have hother : field ≠ other := by
        rintro rfl
        rw [hempty] at hfilled
        cases hfilled
      refine List.not_mem_cons_of_ne_of_not_mem (fun heq => ?_) (ih ?_)
      · exact hother (form.name_injective (Option.some.inj heq))
      · rwa [form.get_set_of_ne hother]
  | unknown hkey _ _ ih =>
      exact List.not_mem_cons_of_ne_of_not_mem (fun heq => hkey field (Option.some.inj heq))
        (ih hfilled)

theorem Reads.count_le_one (h : form.Reads record members last) (field : form.Field) :
    (members.map Prod.fst).count (some (form.name field)) ≤ 1 := by
  induction h with
  | nil => exact Nat.zero_le 1
  | @known record _ members other _ value _ _ hrest ih =>
      rw [List.map_cons]
      by_cases hsame : other = field
      · subst hsame
        have hfilled : (form.get other (form.set other value record)).isSome := by
          rw [form.get_set]
          rfl
        have hnone := List.count_eq_zero.2 (hrest.absent_of_filled hfilled)
        exact Nat.le_of_eq (by rw [List.count_cons_self, hnone])
      · rwa [List.count_cons_of_ne fun heq => hsame (form.name_injective (Option.some.inj heq))]
  | unknown hkey _ _ ih =>
      rwa [List.map_cons, List.count_cons_of_ne fun heq => hkey field (Option.some.inj heq).symm]

variable (form) in
/-- An object that names a field twice is refused. -/
theorem exists_error_of_repeated (record : Record) (ending : Ending) {field : form.Field}
    (hrepeated : 1 < (members.map Prod.fst).count (some (form.name field))) :
    ∃ problem, fillMembers form.slots record members ending = .error problem := by
  cases hfill : fillMembers form.slots record members ending with
  | error problem => exact ⟨problem, rfl⟩
  | ok last => exact absurd ((Reads.of_fillMembers hfill).count_le_one field) (Nat.not_le.2 hrepeated)

/-- A field that is not named stays as it is. -/
theorem Reads.get_of_absent (h : form.Reads record members last) {field : form.Field}
    (habsent : some (form.name field) ∉ members.map Prod.fst) :
    form.get field last = form.get field record := by
  induction h with
  | nil => rfl
  | @known _ _ _ other _ value _ _ _ ih =>
      have hother : field ≠ other := by
        rintro rfl
        exact habsent List.mem_cons_self
      rw [ih (fun hmem => habsent (List.mem_cons_of_mem _ hmem)), form.get_set_of_ne hother]
  | unknown _ _ _ ih => exact ih fun hmem => habsent (List.mem_cons_of_mem _ hmem)

/-- A field that is named has the value that stands there. -/
theorem Reads.get_of_mem (h : form.Reads record members last) {field : form.Field}
    (hmem : (some (form.name field), found) ∈ members) :
    ∃ value, form.decode field found = .ok value ∧ form.get field last = some value := by
  induction h with
  | nil => cases hmem
  | @known record _ members other _ value _ hvalue hrest ih =>
      rcases List.mem_cons.1 hmem with hhead | hmem
      · obtain ⟨hkey, rfl⟩ := Prod.ext_iff.1 hhead
        obtain rfl := form.name_injective (Option.some.inj hkey)
        have hget := form.get_set field value record
        refine ⟨value, hvalue, (hrest.get_of_absent (hrest.absent_of_filled ?_)).trans hget⟩
        rw [hget]
        rfl
      · exact ih hmem
  | unknown hkey _ _ ih =>
      rcases List.mem_cons.1 hmem with hhead | hmem
      · exact absurd (Option.some.inj (Prod.ext_iff.1 hhead).1) (hkey field)
      · exact ih hmem

/-! ### When an object is read -/

variable (form) in
/-- A member that stops nobody: its key is a field's and the value decodes, or its key is unknown and
the value can be passed over. -/
inductive Readable : Option String × Json → Prop where
  | known {field : form.Field} {found : Json} {value : form.Value field}
      (hvalue : form.decode field found = .ok value) : Readable (some (form.name field), found)
  | unknown {key : String} {found : Json} (hkey : ∀ field, form.name field ≠ key)
      (hfound : found.skip? = none) : Readable (some key, found)

theorem exists_reads (hreadable : ∀ member ∈ members, form.Readable member)
    (honce : ∀ field, (members.map Prod.fst).count (some (form.name field)) ≤ 1)
    (hempty : ∀ field, some (form.name field) ∈ members.map Prod.fst →
      form.get field record = none) :
    ∃ last, form.Reads record members last := by
  -- The places of the fields that are still to come stay empty, as none of them is named twice.
  induction members generalizing record with
  | nil => exact ⟨record, .nil⟩
  | cons member members ih =>
      obtain ⟨hmember, hmembers⟩ := List.forall_mem_cons.1 hreadable
      have honceRest : ∀ field, (members.map Prod.fst).count (some (form.name field)) ≤ 1 :=
        fun field => Nat.le_trans List.count_le_count_cons (honce field)
      cases hmember with
      | @known field found value hvalue =>
          have habsent : some (form.name field) ∉ members.map Prod.fst := by
            have hcount := honce field
            rw [List.map_cons, List.count_cons_self] at hcount
            exact List.count_eq_zero.1 (Nat.le_zero.1 (Nat.le_of_succ_le_succ hcount))
          obtain ⟨last, hlast⟩ := ih hmembers honceRest fun other hmem => by
            have hother : other ≠ field := by
              rintro rfl
              exact habsent hmem
            rw [form.get_set_of_ne hother]
            exact hempty other (List.mem_cons_of_mem _ hmem)
          exact ⟨last, .known (hempty field List.mem_cons_self) hvalue hlast⟩
      | unknown hkey hfound =>
          obtain ⟨last, hlast⟩ := ih hmembers honceRest fun field hmem =>
            hempty field (List.mem_cons_of_mem _ hmem)
          exact ⟨last, .unknown hkey hfound hlast⟩

variable (form) in
/-- The object that names all fields in order, each with a value that decodes to some content, fills
an empty record with just that content. -/
theorem exists_reads_all {write : form.Field → Json}
    {content : (field : form.Field) → form.Value field}
    (hwrite : ∀ field, form.decode field (write field) = .ok (content field))
    (hempty : ∀ field, form.get field record = none) :
    ∃ last, form.Reads record
      (form.all.map fun field => (some (form.name field), write field)) last ∧
        ∀ field, form.get field last = some (content field) := by
  have hnodup : (form.all.map fun field => some (form.name field)).Nodup :=
    form.nodup_all.map fun _ _ heq => form.name_injective (Option.some.inj heq)
  have hlast : ∃ last, form.Reads record
      (form.all.map fun field => (some (form.name field), write field)) last := by
    refine exists_reads (List.forall_mem_map.2 fun field _ => .known (hwrite field))
      (fun field => ?_) fun field _ => hempty field
    rw [List.map_map]
    exact List.nodup_iff_count_le_one.1 hnodup _
  obtain ⟨last, hlast⟩ := hlast
  refine ⟨last, hlast, fun field => ?_⟩
  obtain ⟨value, hvalue, hget⟩ := hlast.get_of_mem (List.mem_map_of_mem (form.mem_all field))
  rw [hget, Except.ok.inj ((hwrite field).symm.trans hvalue)]

/-! ### Arrays -/

/-- An array with no more items than there are fields left is read as the object that names them. -/
theorem fillItems_eq_fillMembers {fields : List form.Field} {items : List Json}
    (hfields : fields.Nodup) (hempty : ∀ field ∈ fields, form.get field record = none)
    (hlength : items.length ≤ fields.length) :
    fillItems .ok record (fields.map form.slot) items .closed =
      fillMembers form.slots record
        ((fields.map fun field => some (form.name field)).zip items) .closed := by
  induction items generalizing fields record with
  | nil =>
      rw [List.zip_nil_right]
      cases fields <;> rfl
  | cons item items ih =>
      cases fields with
      | nil => cases hlength
      | cons field fields =>
          obtain ⟨hnotin, hfields⟩ := List.nodup_cons.1 hfields
          obtain ⟨hfield, hempty⟩ := List.forall_mem_cons.1 hempty
          rw [List.map_cons, List.map_cons, List.zip_cons_cons, fillMembers_known, hfield]
          change ((form.decode field item >>= _) >>= _) = form.decode field item >>= _
          cases form.decode field item with
          | error => rfl
          | ok value =>
              -- The fields behind this one find their places empty still.
              refine ih hfields (fun other hmem => ?_) (Nat.le_of_succ_le_succ hlength)
              have hother : other ≠ field := fun heq => hnotin (heq ▸ hmem)
              rw [form.get_set_of_ne hother]
              exact hempty other hmem

end Form

end Json

end Rejoin
