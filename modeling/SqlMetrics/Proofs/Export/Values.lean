import SqlMetrics.Export.Exporter
import SqlMetrics.Proofs.Export.Body
import SqlMetrics.Proofs.Number.Integer

/-!
# What becomes of values

The line exporter takes finite numbers only, and writes an integer as the double nearest to it.  The
Mackerel exporter takes every value, and posts an integer as it is.

- **Finite numbers**: `MetricValue.IsNumber`, and what it means for the block of a batch.
- **Acceptance**: `exporters_accept` sets the exporters beside each other, batch by batch.
- **Integers**: `integer_exported` says what each exporter makes of a 64-bit integer.
-/

namespace SqlMetrics

open Number (Double FitsDouble)

/-! ## Finite numbers -/

/-- A finite number: an integer, or a double that is neither an infinity nor a NaN. -/
def MetricValue.IsNumber : MetricValue → Prop
  | .int _ => True
  | .float x => x.isFinite = true
  | .bool _ | .text _ => False

theorem natAbs_toInt_le (n : Int64) : n.toInt.natAbs ≤ 2 ^ 63 := by
  have hLow := n.le_toInt
  have hHigh := n.toInt_lt
  omega

namespace Stdout

/-- The line exporter sees a number exactly in the finite numbers. -/
theorem isSome_finite? (v : MetricValue) : (finite? v).isSome = true ↔ v.IsNumber := by
  cases v with
  | int n =>
    obtain ⟨r, hFinite, -⟩ := Number.exists_fixed_ofInt (natAbs_toInt_le n)
    simp [finite?, MetricValue.toDouble?, MetricValue.IsNumber, hFinite]
  | float x => simp [finite?, MetricValue.toDouble?, MetricValue.IsNumber]
  | bool b => simp [finite?, MetricValue.toDouble?, MetricValue.IsNumber]
  | text s => simp [finite?, MetricValue.toDouble?, MetricValue.IsNumber]

theorem exists_finite? {v : MetricValue} (h : v.IsNumber) : ∃ x, finite? v = some x :=
  Option.isSome_iff_exists.mp ((isSome_finite? v).mpr h)

theorem finite?_eq_none {v : MetricValue} (h : ¬v.IsNumber) : finite? v = none := by
  rwa [← isSome_finite?, Bool.not_eq_true, Option.isSome_eq_false_iff, Option.isNone_iff_eq_none]
    at h

/-- The block of a batch is the blocks of its parts, one after the other. -/
theorem block_append (points more : List MetricPoint) :
    block (points ++ more) = (block points).bind fun text => (block more).map (text ++ ·) := by
  induction points with
  | nil => cases h : block more <;> simp [block, h, Except.bind, Except.map]
  | cons p rest ih =>
    rw [List.cons_append, block, block]
    cases hFinite : finite? p.value with
    | none => rfl
    | some x =>
      simp only [ih]
      cases block rest <;> cases block more <;> simp [Except.bind, Except.map, String.append_assoc]

/-- The line of a point stands between the blocks of the points before it and behind it. -/
theorem exists_parts {before after : List MetricPoint} {p : MetricPoint} {x : Double}
    {text : String} (hValue : finite? p.value = some x)
    (h : block (before ++ p :: after) = .ok text) : ∃ head tail, block before = .ok head ∧
      block after = .ok tail ∧ text = head ++ line p x ++ tail := by
  rw [block_append, block, hValue] at h
  cases hHead : block before with
  | error e =>
    rw [hHead] at h
    cases h
  | ok head =>
    cases hTail : block after with
    | error e =>
      rw [hHead, hTail] at h
      cases h
    | ok tail =>
      rw [hHead, hTail] at h
      cases h
      exact ⟨head, tail, rfl, rfl, (String.append_assoc ..).symm⟩

/-- A batch of finite numbers has a block. -/
theorem exists_block {points : List MetricPoint} (h : ∀ p ∈ points, p.value.IsNumber) :
    ∃ text, block points = .ok text := by
  induction points with
  | nil => exact ⟨"", rfl⟩
  | cons p rest ih =>
    obtain ⟨x, hFinite⟩ := exists_finite? (h p List.mem_cons_self)
    obtain ⟨text, hText⟩ := ih fun q hMem => h q (List.mem_cons_of_mem p hMem)
    exact ⟨line p x ++ text, by rw [block, hFinite, hText]; rfl⟩

/-- Any other batch is refused for its first point that has no finite number. -/
theorem block_of_first {before after : List MetricPoint} {p : MetricPoint}
    (hBefore : ∀ q ∈ before, q.value.IsNumber) (h : ¬p.value.IsNumber) :
    block (before ++ p :: after) = .error (.invalidValue p.name p.value.display) := by
  obtain ⟨text, hText⟩ := exists_block hBefore
  rw [block_append, hText, block, finite?_eq_none h]
  rfl

/-- A batch is of finite numbers, or has a first point that is not. -/
theorem isNumber_or_first (points : List MetricPoint) : (∀ p ∈ points, p.value.IsNumber) ∨
    ∃ before p after, points = before ++ p :: after ∧ (∀ q ∈ before, q.value.IsNumber) ∧
      ¬p.value.IsNumber := by
  induction points with
  | nil => exact .inl fun _ hMem => absurd hMem List.not_mem_nil
  | cons p rest ih =>
    by_cases hFirst : p.value.IsNumber
    · rcases ih with hAll | ⟨before, q, after, rfl, hBefore, hOther⟩
      · exact .inl (List.forall_mem_cons.mpr ⟨hFirst, hAll⟩)
      · exact .inr ⟨p :: before, q, after, rfl, List.forall_mem_cons.mpr ⟨hFirst, hBefore⟩, hOther⟩
    · exact .inr ⟨[], p, rest, rfl, fun _ hMem => absurd hMem List.not_mem_nil, hFirst⟩

end Stdout

/-! ## Acceptance -/

/-- A JSON number. -/
def Text.Json.Tree.IsNumber : Text.Json.Tree → Prop
  | .int _ | .real _ => True
  | _ => False

theorem isNumber_tree (v : MetricValue) : v.tree.IsNumber ↔ v.IsNumber := by
  cases v with
  | float x => by_cases h : x.isFinite = true <;>
      simp [MetricValue.tree, MetricValue.IsNumber, Text.Json.Tree.IsNumber, h]
  | _ => simp [MetricValue.tree, MetricValue.IsNumber, Text.Json.Tree.IsNumber]

namespace Mackerel

theorem outcome_ne_invalidValue (r : Response) (name value : String) :
    r.outcome ≠ .error (.invalidValue name value) := by
  unfold Response.outcome
  split <;> simp

/-- No value is refused. -/
theorem exportBatch_ne_invalidValue (client : Client) (network : Request → Delivery)
    (service : String) (points : List MetricPoint) (name value : String) :
    (client.exportBatch network service points).2 ≠ .error (.invalidValue name value) := by
  unfold Client.exportBatch
  rcases request_cases client service with ⟨e, hOther, hError⟩ | ⟨r, hRequest⟩
  · rw [hError]
    simpa using hOther name value
  · rw [hRequest]
    dsimp only
    split
    · simp
    · exact outcome_ne_invalidValue _ name value

/-- Whether a request is made does not depend on the batch. -/
theorem isSome_exportBatch (client : Client) (network : Request → Delivery) (service : String)
    (points points' : List MetricPoint) :
    (client.exportBatch network service points).1.isSome =
      (client.exportBatch network service points').1.isSome := by
  unfold Client.exportBatch
  rcases request_cases client service with ⟨e, -, hError⟩ | ⟨r, hRequest⟩
  · rw [hError, hError]
  · rw [hRequest, hRequest]
    rfl

end Mackerel

/-- The object of a point, with a value that is a JSON number exactly for the finite numbers. -/
def HasNumberOf (p : MetricPoint) (t : Text.Json.Tree) : Prop :=
  ∃ value, t = .object [("name", .string p.name), ("time", .int p.time.toInt), ("value", value)] ∧
    (value.IsNumber ↔ p.value.IsNumber)

/-- **The exporters do not take the same values.**  The line exporter takes the batches of finite
numbers; any other batch it refuses for the first point that has none, before anything is written.
The Mackerel exporter refuses no value: whether it makes a request does not depend on the batch, and
the body has a JSON number exactly where the batch has a finite number. -/
theorem exporters_accept (client : Mackerel.Client) (network : Mackerel.Request → Mackerel.Delivery)
    (service : String) (points : List MetricPoint) :
    ((∀ p ∈ points, p.value.IsNumber) →
      Exporter.stdout.exportBatch network service points = .ok ()) ∧
    (∀ before p after, points = before ++ p :: after → (∀ q ∈ before, q.value.IsNumber) →
      ¬p.value.IsNumber → ∀ w s, Stdout.exportBatch w s points =
        (s, .error (.invalidValue p.name p.value.display))) ∧
    (∀ name value, (client.exportBatch network service points).2 ≠
      .error (.invalidValue name value)) ∧
    (∀ others, (client.exportBatch network service others).1.isSome =
      (client.exportBatch network service points).1.isSome) ∧
    ∀ request, (client.exportBatch network service points).1 = some request →
      ∃ trees, Text.Json.read? request.body = some (.array trees) ∧
        List.Forall₂ HasNumberOf points trees := by
  refine ⟨fun hAll => ?_, ?_, Mackerel.exportBatch_ne_invalidValue client network service points,
    fun others => Mackerel.isSome_exportBatch client network service others points,
    fun request hPosted => ?_⟩
  · obtain ⟨text, hText⟩ := Stdout.exists_block hAll
    rw [Exporter.exportBatch, hText]
    rfl
  · rintro before p after rfl hBefore hOther w s
    rw [Stdout.exportBatch, Stdout.block_of_first hBefore hOther]
  · refine ⟨_, Mackerel.body_of_exportBatch hPosted ▸ read?_batchJson points, ?_⟩
    rw [List.forall₂_map_right_iff, List.forall₂_same]
    exact fun p _ => ⟨p.value.tree, rfl, isNumber_tree p.value⟩

/-- A NaN, which the line exporter refuses, is posted as `null`. -/
theorem nan_posted_as_null :
    let points : List MetricPoint := [⟨"load", 0, .float Double.nan⟩]
    (Stdout.exportBatch .unlimited {} points = ({}, .error (.invalidValue "load" "NaN"))) ∧
    ∃ request, Mackerel.localClient.exportBatch (fun _ => .ok ⟨200, []⟩) "s" points =
      (some request, .ok ()) ∧
        request.body = "[\x7b\"name\":\"load\",\"time\":0,\"value\":null\x7d]" :=
  ⟨rfl, _, rfl, rfl⟩

/-! ## Integers -/

/-- **A 64-bit integer is printed as the double nearest to it**, which is the integer itself exactly
where it is a double, while the posted body has the integer itself. -/
theorem integer_exported (n : Int64) :
    ∃ r : ℤ, FitsDouble r ∧ (∀ t, FitsDouble t → |n.toInt - r| ≤ |n.toInt - t|) ∧
      (r = n.toInt ↔ FitsDouble n.toInt) ∧ (n.toInt.natAbs ≤ 2 ^ 53 → r = n.toInt) ∧
      ∀ (before after : List MetricPoint) (name : String) (time : Int64),
        (∀ text, Stdout.block (before ++ ⟨name, time, .int n⟩ :: after) = .ok text →
          ∃ head tail, Stdout.block before = .ok head ∧ Stdout.block after = .ok tail ∧
            text = head ++ (name ++ "\t" ++ (Number.intText r ++ ".000000") ++ "\t" ++
              Number.intText time.toInt ++ "\n") ++ tail) ∧
        ∀ client network service request,
          (Mackerel.Client.exportBatch client network service
            (before ++ ⟨name, time, .int n⟩ :: after)).1 = some request →
          ∃ trees, Text.Json.read? request.body = some (.array trees) ∧
            trees[before.length]? = some (.object [("name", .string name),
              ("time", .int time.toInt), ("value", .int n.toInt)]) := by
  obtain ⟨r, hFinite, hFits, hNearest, hFixed⟩ := Number.exists_fixed_ofInt (natAbs_toInt_le n)
  have hExact (hDouble : FitsDouble n.toInt) : r = n.toInt := by
    have hNone := hNearest _ hDouble
    rw [sub_self, abs_zero, abs_nonpos_iff, sub_eq_zero] at hNone
    exact hNone.symm
  refine ⟨r, hFits, hNearest, ⟨fun hSame => hSame ▸ hFits, hExact⟩,
    fun hSmall => hExact (Number.fitsDouble_of_natAbs_le hSmall), ?_⟩
  · intro before after name time
    have hValue : Stdout.finite? (.int n) = some (Double.ofInt n.toInt) := by
      simp [Stdout.finite?, MetricValue.toDouble?, hFinite]
    have hSix : (Double.ofInt n.toInt).fixed 6 = Number.intText r ++ ".000000" := by
      apply String.toList_inj.mp
      rw [hFixed 6 (by decide), String.toList_append]
      rfl
    constructor
    · intro text hText
      obtain ⟨head, tail, hHead, hTail, rfl⟩ := Stdout.exists_parts hValue hText
      refine ⟨head, tail, hHead, hTail, ?_⟩
      simp only [Stdout.line, hSix, String.append_assoc]
    · intro client network service request hPosted
      refine ⟨_, Mackerel.body_of_exportBatch hPosted ▸ read?_batchJson _, ?_⟩
      simp [MetricPoint.tree, MetricValue.tree]

/-- The first integer that is not a double is printed as the one before it. -/
theorem neighbour_printed :
    Stdout.block [⟨"bytes", 0, .int 9007199254740993⟩] =
      .ok "bytes\t9007199254740992.000000\t0\n" ∧
    Stdout.block [⟨"bytes", 0, .int 9007199254740992⟩] =
      .ok "bytes\t9007199254740992.000000\t0\n" := by
  decide +kernel

end SqlMetrics
