import Footprint.Proofs.Dimension.Document
import Footprint.Proofs.Session.Same

/-!
The parts of a session are read as they were written.

For each kind of part there are two facts: its tree is written with so many levels of containers
(`written_toJson`), and what is read of it, however its document is carried (`ofJson?_carried`).
Units, attributes and bindings come back as they are. A quantity comes back with what is read of its
decimal (`Quantity.carried`), and so does what contains one: `EmissionFactor.carried`,
`Rule.carried`.

* `Session.ofJson?_carried`: a session is read back up to its constants and its allocation.
* `Rule.exists_carried`: constants that are whole numbers of 64 bits come back up to their scale.
-/

namespace Footprint

open Json (Carries Written arriving present written_present)

/-! ### Units -/

namespace MeasureUnit

theorem written_toJson {fractions : Prop} (u : MeasureUnit) : Written fractions 2 u.toJson := by
  refine .object ?_
  intro e mem
  simp only [List.mem_cons, List.not_mem_nil, or_false] at mem
  rcases mem with rfl | rfl | rfl
  · exact .string
  · exact .string
  · exact u.dim.written_toJson

variable {f : Json → Json} (carries : Carries f) (u : MeasureUnit)
include carries

theorem ofJson?_carried : ofJson? (f u.toJson) = some u := by
  have fields : (f u.toJson).fields? ["symbol", "name", "dim"] =
      some [some (f (.string u.symbol)), some (f (.string u.name)), some (f u.dim.toJson)] :=
    carries.fields?_present [("symbol", some (.string u.symbol)), ("name", some (.string u.name)),
      ("dim", some u.dim.toJson)] (by simp)
  simp [ofJson?, fields, Json.required, carries.string, Json.string?,
    Dimension.ofJson?_carried carries]

theorem carried_ne_null : f u.toJson ≠ .null := carries.object_ne_null (by simp)

end MeasureUnit

/-! ### Attributes and bindings -/

namespace Attribute

/-- The kind of an attribute in documents. -/
def kindName : Attribute → String
  | .event .. => "event"
  | .object .. => "object"

/-- The fields of an attribute in documents, behind its kind. -/
def fields : Attribute → List (String × Option Json)
  | .event activity name => [("activity", some (.string activity)), ("name", some (.string name))]
  | .object objectType dynamic name =>
    [("objectType", some (.string objectType)), ("dynamic", some (.bool dynamic)),
      ("name", some (.string name))]

/-- The kind and the other fields. -/
def allFields (a : Attribute) : List (String × Option Json) :=
  ("target", some (.string a.kindName)) :: a.fields

theorem members_eq (a : Attribute) :
    a.members = ("target", .string a.kindName) :: present a.fields := by
  cases a <;> rfl

theorem nodup_allFields (a : Attribute) : (a.allFields.map (·.1)).Nodup := by
  cases a <;> simp [allFields, fields]

theorem written_fields {fractions : Prop} (a : Attribute) :
    ∀ e ∈ present a.fields, Written fractions 0 e.2 := by
  cases a <;> simp [present, fields, Written.string, Written.bool]

theorem written_members {fractions : Prop} (a : Attribute) :
    ∀ e ∈ a.members, Written fractions 0 e.2 := by
  rw [members_eq]
  exact List.forall_mem_cons.mpr ⟨.string, a.written_fields⟩

theorem written_toJson {fractions : Prop} (a : Attribute) : Written fractions 1 a.toJson :=
  .object a.written_members

theorem written_ofList {fractions : Prop} (attributes : List Attribute) :
    Written fractions 2 (Json.ofList toJson attributes) := by
  refine .array ?_
  intro item mem
  obtain ⟨a, -, rfl⟩ := List.mem_map.mp mem
  exact a.written_toJson

theorem arriving_allFields {f : Json → Json} (carries : Carries f) (a : Attribute) :
    arriving f a.allFields = a.allFields := by
  cases a <;> simp [arriving, allFields, fields, carries.string, carries.bool]

/-- An attribute is read from its members in whatever order. -/
theorem ofJson?_of_perm (held : Bool) {a : Attribute} {members : List (String × Json)}
    (perm : members.Perm a.members) : ofJson? held (.object members) = some a := by
  rw [members_eq] at perm
  obtain ⟨fresh, distinct⟩ := List.nodup_cons.mp a.nodup_allFields
  have known : a.kindName ∈ ["event", "object"] := by cases a <;> simp [kindName]
  obtain ⟨rest, tagged, perm⟩ := Json.tagged?_of_perm held perm known fresh fun e mem =>
    (@written_fields True a e mem).readable
  have values := Json.fields?_of_perm perm distinct
  cases a with
  | event activity name =>
    simp only [fields, List.map_cons, List.map_nil] at values
    simp [ofJson?, tagged, kindName, values, Json.required, Json.string?]
  | object objectType dynamic name =>
    simp only [fields, List.map_cons, List.map_nil] at values
    simp [ofJson?, tagged, kindName, values, Json.required, Json.defaulted, Json.string?,
      Json.bool?]

theorem ofJson?_carried {f : Json → Json} (carries : Carries f) (held : Bool) (a : Attribute) :
    ofJson? held (f a.toJson) = some a := by
  obtain ⟨arrived, received, perm⟩ := carries.object_present a.nodup_allFields
  rw [arriving_allFields carries, allFields, Json.present_cons_some, ← members_eq] at perm
  rw [allFields, Json.present_cons_some, ← members_eq] at received
  rw [toJson, received]
  exact ofJson?_of_perm held perm

end Attribute

namespace Binding

/-- The unit of a binding, as a field in documents. -/
def unitField (b : Binding) : String × Option Json := ("unit", b.unit.map MeasureUnit.toJson)

theorem nodup_fields (b : Binding) :
    ((b.subject.allFields ++ [b.unitField]).map (·.1)).Nodup := by
  cases b.subject <;> simp [Attribute.allFields, Attribute.fields, unitField]

theorem toJson_eq (b : Binding) :
    b.toJson = .object (present (b.subject.allFields ++ [b.unitField])) := by
  rw [Json.present_append, Attribute.allFields, Json.present_cons_some, ← Attribute.members_eq]
  cases h : b.unit <;> simp [toJson, unitField, h, present]

theorem written_toJson {fractions : Prop} (b : Binding) : Written fractions 3 b.toJson := by
  refine .object ?_
  intro e mem
  rcases List.mem_append.mp mem with mem | mem
  · exact (b.subject.written_members e mem).mono (by decide)
  · obtain ⟨u, -, rfl⟩ := Option.map_eq_some_iff.mp (Option.mem_toList.mp mem)
    exact u.written_toJson

theorem ofJson?_carried {f : Json → Json} (carries : Carries f) (b : Binding) :
    ofJson? (f b.toJson) = some b := by
  have distinct := b.nodup_fields
  obtain ⟨arrived, received, perm⟩ := carries.object_present distinct
  rw [← Json.names_arriving f, Json.arriving_append,
    Attribute.arriving_allFields carries] at distinct
  rw [Json.arriving_append, Attribute.arriving_allFields carries] at perm
  have present_eq : present b.subject.allFields = b.subject.members := by
    rw [Attribute.allFields, Json.present_cons_some, ← Attribute.members_eq]
  obtain ⟨rest, opened, rest_perm⟩ := Json.openFields?_of_perm perm distinct fun e mem =>
    (@Attribute.written_members True b.subject e (present_eq ▸ mem)).readable
  have subject := Attribute.ofJson?_of_perm true (present_eq ▸ rest_perm)
  have unit := Json.optional_map_self (MeasureUnit.carried_ne_null carries)
    (MeasureUnit.ofJson?_carried carries) b.unit
  simp only [arriving, unitField, List.map_cons, List.map_nil, Option.map_map] at opened
  rw [toJson_eq, received]
  simp [ofJson?, opened, subject, Function.comp_def, unit]

end Binding

/-! ### Decimals and quantities -/

namespace Decimal

theorem ofInt?_of_int64 {i : Int} (low : -2 ^ 63 ≤ i) (high : i < 2 ^ 63) :
    ∃ d, ofInt? i = some d ∧ d.signed = i ∧ d.scale = 0 := by
  have bounded : i.natAbs < 2 ^ 96 ∧ 0 ≤ 28 := ⟨by omega, by decide⟩
  refine ⟨_, dif_pos bounded, ?_, rfl⟩
  simp only [signed, ofParts]
  by_cases negative : i < 0
  · simp only [negative, decide_true, Bool.true_and, bne_iff_ne]
    rw [if_pos (by omega)]
    omega
  · simp only [negative, decide_false, Bool.false_and, Bool.false_eq_true, if_false]
    omega

theorem toJson_of_isInt64 {d : Decimal} (whole : d.IsInt64) :
    ∃ i, d.toJson = .int i ∧ d.signed = i * 10 ^ d.scale ∧ -2 ^ 63 ≤ i ∧ i < 2 ^ 63 := by
  obtain ⟨i, found⟩ := isInt64_iff.mp whole
  exact ⟨i, by rw [toJson, found], toInt64?_eq_some_iff.mp found⟩

theorem toJson_of_not_isInt64 {d : Decimal} (broken : ¬ d.IsInt64) :
    d.toJson = .float d.toDouble := by
  have none : d.toInt64? = none :=
    Option.eq_none_iff_forall_ne_some.mpr fun i found => broken (isInt64_iff.mpr ⟨i, found⟩)
  rw [toJson, none]

/-- A decimal is written as a fraction at most when it is not a whole number of 64 bits. -/
theorem written_toJson {fractions : Prop} {d : Decimal} (fraction : ¬ d.IsInt64 → fractions) :
    Written fractions 0 d.toJson := by
  by_cases whole : d.IsInt64
  · obtain ⟨i, written, -, low, high⟩ := toJson_of_isInt64 whole
    rw [written]
    exact .int ⟨by omega, by omega⟩
  · rw [toJson_of_not_isInt64 whole]
    exact .float (fraction whole)

theorem exists_carried {f : Json → Json} (carries : Carries f) {d : Decimal} (whole : d.IsInt64) :
    ∃ read, ofJson? (f d.toJson) = some read ∧ d.SameValue read := by
  obtain ⟨i, written, value, low, high⟩ := toJson_of_isInt64 whole
  obtain ⟨read, found, signed, scale⟩ := ofInt?_of_int64 low high
  refine ⟨read, by rw [written, carries.int ⟨by omega, by omega⟩]; exact found, ?_⟩
  unfold SameValue
  rw [value, signed, scale, Int.pow_zero, Int.mul_one]

end Decimal

namespace Quantity

theorem written_toJson {fractions : Prop} {q : Quantity}
    (fraction : ¬ q.value.IsInt64 → fractions) : Written fractions 3 q.toJson := by
  refine .object ?_
  intro e mem
  simp only [List.mem_cons, List.not_mem_nil, or_false] at mem
  rcases mem with rfl | rfl
  · exact (Decimal.written_toJson fraction).mono (by decide)
  · cases q.unit with
    | none => exact .null
    | some u => exact u.written_toJson

/-- What is read of a quantity whose document is carried by `f`. -/
def carried (f : Json → Json) (q : Quantity) : Option Quantity :=
  (Decimal.ofJson? (f q.value.toJson)).map fun value => { q with value := value }

variable {f : Json → Json} (carries : Carries f)
include carries

theorem ofJson?_carried (q : Quantity) : ofJson? (f q.toJson) = q.carried f := by
  have fields : (f q.toJson).fields? ["value", "unit"] =
      some [some (f q.value.toJson), some (f (Json.ofOption MeasureUnit.toJson q.unit))] :=
    carries.fields?_present [("value", some q.value.toJson),
      ("unit", some (Json.ofOption MeasureUnit.toJson q.unit))] (by simp)
  have unit := carries.nullable?_ofOption (MeasureUnit.carried_ne_null carries)
    (MeasureUnit.ofJson?_carried carries) q.unit
  cases found : Decimal.ofJson? (f q.value.toJson) <;>
    simp [ofJson?, fields, Json.required, Json.optional, unit, found, carried]

theorem carried_ne_null (q : Quantity) : f q.toJson ≠ .null := carries.object_ne_null (by simp)

theorem exists_carried {q : Quantity} (whole : q.value.IsInt64) :
    ∃ read, q.carried f = some read ∧ q.Same read := by
  obtain ⟨value, found, same⟩ := Decimal.exists_carried carries whole
  exact ⟨⟨value, q.unit⟩, by rw [carried, found, Option.map_some], same, rfl⟩

end Quantity

/-! ### Factors and rules -/

namespace EmissionFactor

/-- The kind of a factor in documents. -/
def kindName : EmissionFactor → String
  | .constant _ => "local"
  | .external .. => "external"

/-- The fields of a factor in documents, behind its kind. -/
def fields : EmissionFactor → List (String × Option Json)
  | .constant value => [("value", value.map Quantity.toJson)]
  | .external catalogId dim =>
    [("catalogId", catalogId.map .string), ("dim", dim.map Dimension.toJson)]

theorem toJson_eq (g : EmissionFactor) :
    g.toJson = .object (("type", .string g.kindName) :: present g.fields) := by
  cases g with
  | constant value => cases value <;> rfl
  | external catalogId dim => cases catalogId <;> cases dim <;> rfl

theorem nodup_fields (g : EmissionFactor) : ("type" :: g.fields.map (·.1)).Nodup := by
  cases g <;> simp [fields]

theorem written_fields {fractions : Prop} {g : EmissionFactor}
    (fraction : ¬ g.IsWhole → fractions) : ∀ e ∈ present g.fields, Written fractions 3 e.2 := by
  apply written_present
  intro field mem j found
  cases g with
  | constant value =>
    simp only [fields, List.mem_cons, List.not_mem_nil, or_false] at mem
    subst mem
    obtain ⟨q, rfl, rfl⟩ := Option.map_eq_some_iff.mp found
    exact Quantity.written_toJson fun broken => fraction fun whole => broken (whole q rfl)
  | external catalogId dim =>
    simp only [fields, List.mem_cons, List.not_mem_nil, or_false] at mem
    rcases mem with rfl | rfl
    · exact Json.written_map_string found
    · obtain ⟨d, -, rfl⟩ := Option.map_eq_some_iff.mp found
      exact d.written_toJson.mono (by decide)

theorem written_toJson {fractions : Prop} {g : EmissionFactor}
    (fraction : ¬ g.IsWhole → fractions) : Written fractions 4 g.toJson := by
  rw [toJson_eq]
  exact .object (List.forall_mem_cons.mpr ⟨.string, written_fields fraction⟩)

/-- What is read of a factor whose document is carried by `f`. -/
def carried (f : Json → Json) : EmissionFactor → Option EmissionFactor
  | .constant value => (value.mapM (Quantity.carried f)).map .constant
  | .external catalogId dim => some (.external catalogId dim)

variable {f : Json → Json} (carries : Carries f)
include carries

theorem ofJson?_carried (held : Bool) (g : EmissionFactor) :
    ofJson? held (f g.toJson) = g.carried f := by
  have known : g.kindName ∈ ["local", "external"] := by cases g <;> simp [kindName]
  obtain ⟨rest, tagged, values⟩ := carries.tagged?_present held g.fields known g.nodup_fields
    fun e mem => (@written_fields True g (fun _ => trivial) e mem).readable
  rw [← toJson_eq] at tagged
  cases g with
  | constant value =>
    have read : Json.optional Quantity.ofJson? (value.map fun q => f q.toJson) =
        value.mapM (Quantity.carried f) := by
      rw [Json.optional_map (Quantity.carried_ne_null carries),
        funext (Quantity.ofJson?_carried carries)]
    simp only [fields, List.map_cons, List.map_nil, Option.map_map] at values
    cases found : value.mapM (Quantity.carried f) <;>
      simp [ofJson?, tagged, kindName, values, carried, Function.comp_def, read, found]
  | external catalogId dim =>
    have text := carries.optional_string catalogId
    have dimension := Json.optional_map_self (Dimension.carried_ne_null carries)
      (Dimension.ofJson?_carried carries) dim
    simp only [fields, List.map_cons, List.map_nil, Option.map_map] at values
    simp [ofJson?, tagged, kindName, values, carried, Function.comp_def, text, dimension]

theorem carried_ne_null (g : EmissionFactor) : f g.toJson ≠ .null := by
  rw [toJson_eq, ← Json.present_cons_some]
  exact carries.object_ne_null (Json.nodup_present g.nodup_fields)

theorem exists_carried {g : EmissionFactor} (whole : g.IsWhole) :
    ∃ read, g.carried f = some read ∧ g.Same read := by
  cases g with
  | constant value =>
    obtain ⟨read, found, same⟩ := Json.exists_mapM_rel fun q chosen =>
      Quantity.exists_carried carries (whole q (chosen ▸ rfl))
    exact ⟨.constant read, by rw [carried, found, Option.map_some], .constant same⟩
  | external catalogId dim => exact ⟨_, rfl, .external⟩

end EmissionFactor

namespace Rule

/-- The fields of a rule in documents, behind its kind. -/
def fields : Rule → List (String × Option Json)
  | .event r =>
    [("activity", r.activity.map .string), ("factor", r.factor.map EmissionFactor.toJson),
      ("multiplierAttributes", some (Json.ofList Attribute.toJson r.multipliers))]
  | .relation r =>
    [("activity", r.activity.map .string), ("objectType", r.objectType.map .string),
      ("qualifier", r.qualifier.map .string), ("factor", r.factor.map EmissionFactor.toJson),
      ("multiplierAttributes", some (Json.ofList Attribute.toJson r.multipliers))]

theorem toJson_eq (r : Rule) :
    r.toJson = .object (("type", .string r.kindName) :: present r.fields) := by
  cases r with
  | event r =>
    obtain ⟨activity, factor, multipliers⟩ := r
    cases activity <;> cases factor <;> rfl
  | relation r =>
    obtain ⟨activity, objectType, qualifier, factor, multipliers⟩ := r
    cases activity <;> cases objectType <;> cases qualifier <;> cases factor <;> rfl

theorem nodup_fields (r : Rule) : ("type" :: r.fields.map (·.1)).Nodup := by
  cases r <;> simp [fields]

theorem written_fields {fractions : Prop} {r : Rule} (fraction : ¬ r.IsWhole → fractions) :
    ∀ e ∈ present r.fields, Written fractions 4 e.2 := by
  have factor : ∀ j, r.factor.map EmissionFactor.toJson = some j → Written fractions 4 j := by
    intro j found
    obtain ⟨g, chosen, rfl⟩ := Option.map_eq_some_iff.mp found
    exact EmissionFactor.written_toJson fun broken => fraction fun whole => broken (whole g chosen)
  apply written_present
  intro field mem j found
  cases r with
  | event r =>
    simp only [fields, List.mem_cons, List.not_mem_nil, or_false] at mem
    rcases mem with rfl | rfl | rfl
    · exact Json.written_map_string found
    · exact factor j found
    · exact Option.some.inj found ▸ (Attribute.written_ofList r.multipliers).mono (by decide)
  | relation r =>
    simp only [fields, List.mem_cons, List.not_mem_nil, or_false] at mem
    rcases mem with rfl | rfl | rfl | rfl | rfl
    · exact Json.written_map_string found
    · exact Json.written_map_string found
    · exact Json.written_map_string found
    · exact factor j found
    · exact Option.some.inj found ▸ (Attribute.written_ofList r.multipliers).mono (by decide)

theorem written_toJson {fractions : Prop} {r : Rule} (fraction : ¬ r.IsWhole → fractions) :
    Written fractions 5 r.toJson := by
  rw [toJson_eq]
  exact .object (List.forall_mem_cons.mpr ⟨.string, written_fields fraction⟩)

/-- What is read of a rule whose document is carried by `f`. -/
def carried (f : Json → Json) : Rule → Option Rule
  | .event r => (r.factor.mapM (EmissionFactor.carried f)).map fun factor =>
    .event { r with factor := factor }
  | .relation r => (r.factor.mapM (EmissionFactor.carried f)).map fun factor =>
    .relation { r with factor := factor }

variable {f : Json → Json} (carries : Carries f)
include carries

theorem ofJson?_carried (r : Rule) : ofJson? (f r.toJson) = r.carried f := by
  have known : r.kindName ∈ ["EventEmissionRule", "E2OEmissionRule"] := by
    cases r <;> simp [kindName]
  obtain ⟨rest, tagged, values⟩ := carries.tagged?_present false r.fields known r.nodup_fields
    fun e mem => (@written_fields True r (fun _ => trivial) e mem).readable
  rw [← toJson_eq] at tagged
  have attributes := carries.list?_ofList_self (Attribute.ofJson?_carried carries true)
  have read : ∀ factor : Option EmissionFactor,
      Json.optional (EmissionFactor.ofJson? true) (factor.map fun g => f g.toJson) =
        factor.mapM (EmissionFactor.carried f) := by
    intro factor
    rw [Json.optional_map (EmissionFactor.carried_ne_null carries),
      funext (EmissionFactor.ofJson?_carried carries true)]
  have texts := carries.optional_string
  cases r with
  | event r =>
    simp only [fields, List.map_cons, List.map_nil, Option.map_map] at values
    cases found : r.factor.mapM (EmissionFactor.carried f) <;>
      simp [ofJson?, tagged, kindName, values, carried, Function.comp_def, texts, read, found,
        Json.defaulted, attributes]
  | relation r =>
    simp only [fields, List.map_cons, List.map_nil, Option.map_map] at values
    cases found : r.factor.mapM (EmissionFactor.carried f) <;>
      simp [ofJson?, tagged, kindName, values, carried, Function.comp_def, texts, read, found,
        Json.defaulted, attributes]

/-- Constants that are whole numbers of 64 bits come back up to their scale. -/
theorem exists_carried {r : Rule} (whole : r.IsWhole) :
    ∃ read, r.carried f = some read ∧ r.Same read := by
  obtain ⟨factor, found, same⟩ := Json.exists_mapM_rel fun g chosen =>
    EmissionFactor.exists_carried carries (whole g chosen)
  cases r with
  | event r =>
    exact ⟨.event { r with factor := factor }, congrArg (Option.map _) found,
      .event ⟨rfl, same, rfl⟩⟩
  | relation r =>
    exact ⟨.relation { r with factor := factor }, congrArg (Option.map _) found,
      .relation ⟨rfl, rfl, rfl, same, rfl⟩⟩

end Rule

/-! ### Sessions -/

namespace Session

/-- A session has one more level than its allocation, and room for its bindings and rules. -/
theorem written_toJson {fractions : Prop} {s : Session}
    (fraction : ∀ r ∈ s.rules, ¬ r.IsWhole → fractions)
    (allocation : Written fractions 126 s.allocation.tree) :
    Written fractions Json.maxLevels s.toJson := by
  refine .object ?_
  intro e mem
  simp only [List.mem_cons, List.not_mem_nil, or_false] at mem
  rcases mem with rfl | rfl | rfl
  · refine .array ?_
    intro item mem
    obtain ⟨b, -, rfl⟩ := List.mem_map.mp mem
    exact b.written_toJson.mono (by decide)
  · refine .array ?_
    intro item mem
    obtain ⟨r, chosen, rfl⟩ := List.mem_map.mp mem
    exact (Rule.written_toJson (fraction r chosen)).mono (by decide)
  · exact allocation

/-- A session comes back with what is read of its rules and its allocation. -/
theorem ofJson?_carried {f : Json → Json} (carries : Carries f) (s : Session) :
    ofJson? (f s.toJson) = (s.rules.mapM (Rule.carried f)).bind fun rules =>
      (Json.Value.ofJson? (f s.allocation.tree)).map fun allocation =>
        ⟨s.bindings, rules, allocation⟩ := by
  have fields : (f s.toJson).fields?
      ["attributeUnits", "emissionRules", "objectAllocationConfig"] =
      some [some (f (Json.ofList Binding.toJson s.bindings)),
        some (f (Json.ofList Rule.toJson s.rules)), some (f s.allocation.tree)] :=
    carries.fields?_present [("attributeUnits", some (Json.ofList Binding.toJson s.bindings)),
      ("emissionRules", some (Json.ofList Rule.toJson s.rules)),
      ("objectAllocationConfig", some s.allocation.tree)] (by simp)
  have bindings := carries.list?_ofList_self (Binding.ofJson?_carried carries) s.bindings
  have rules : Json.list? Rule.ofJson? (f (Json.ofList Rule.toJson s.rules)) =
      s.rules.mapM (Rule.carried f) := by
    rw [carries.list?_ofList, funext (Rule.ofJson?_carried carries)]
  cases found : s.rules.mapM (Rule.carried f) <;>
    cases free : Json.Value.ofJson? (f s.allocation.tree) <;>
      simp [ofJson?, fields, Json.defaulted, bindings, rules, found, free]

end Session

end Footprint
