import SqlMetrics.Proofs.Export.Endpoint
import SqlMetrics.Proofs.Text.Json

/-!
# Bodies that can be read back

The body in which a batch is posted is one JSON array with an object for each point, and as long as
all doubles of the batch are finite it tells the batch exactly.

- **Trees**: `CarriesPoint` says which JSON object tells a point, and `MetricPoint.tree` is one that
  does where the value is not an infinity or a NaN.
- **Reading back**: `read?_batchJson` says what the body of any batch reads back as, one lemma for
  each layer of the text before it.
- **Requests**: the body of a request is the JSON text of its batch.  The main result is
  `posted_body_reads_back`.
-/

namespace SqlMetrics

open Text.Json (Tree Token Parser Lexes lexes_punctuation lexes_plain lexes_string)

/-! ## Trees -/

/-- The value as a JSON tree, of the kind that it has itself.  There are no JSON numbers for
infinities and NaNs. -/
def MetricValue.tree : MetricValue → Tree
  | .int n => .int n.toInt
  | .float x => if x.isFinite then .real x else .null
  | .bool b => .bool b
  | .text s => .string s

/-- The point as a JSON tree. -/
def MetricPoint.tree (p : MetricPoint) : Tree :=
  .object [("name", .string p.name), ("time", .int p.time.toInt), ("value", p.value.tree)]

/-- The trees that values are told by, kind by kind.  Infinities and NaNs have none. -/
def CarriesValue : MetricValue → Tree → Prop
  | .int n, .int k => k = n.toInt
  | .float x, .real y => y = x
  | .bool b, .bool c => c = b
  | .text s, .string t => t = s
  | _, _ => False

/-- An object with the name, the time and the value of a point, and with nothing else. -/
def CarriesPoint (p : MetricPoint) (t : Tree) : Prop :=
  ∃ value, t = .object [("name", .string p.name), ("time", .int p.time.toInt), ("value", value)] ∧
    CarriesValue p.value value

/-- A tree tells a value and its kind. -/
theorem CarriesValue.unique {t : Tree} {v w : MetricValue} (h : CarriesValue v t)
    (hOther : CarriesValue w t) : v = w := by
  cases v <;> cases w <;> cases t <;> simp_all [CarriesValue, Int64.toInt_inj]

theorem CarriesPoint.unique {t : Tree} {p q : MetricPoint} (h : CarriesPoint p t)
    (hOther : CarriesPoint q t) : p = q := by
  obtain ⟨value, rfl, hValue⟩ := h
  obtain ⟨value', hSame, hValue'⟩ := hOther
  obtain ⟨name, time, v⟩ := p
  obtain ⟨name', time', v'⟩ := q
  simp only [Tree.object.injEq, List.cons.injEq, Prod.mk.injEq, Tree.string.injEq,
    Tree.int.injEq, Int64.toInt_inj, true_and, and_true] at hSame
  obtain ⟨rfl, rfl, rfl⟩ := hSame
  obtain rfl := hValue.unique hValue'
  rfl

/-- Batches that are told by the same trees are the same. -/
theorem eq_of_carriesPoint {points others : List MetricPoint} {trees : List Tree}
    (h : List.Forall₂ CarriesPoint points trees)
    (hOthers : List.Forall₂ CarriesPoint others trees) : points = others := by
  induction h generalizing others with
  | nil =>
    cases hOthers
    rfl
  | cons hPoint _ ih =>
    cases hOthers with
    | cons hOther hRest => rw [hPoint.unique hOther, ih hRest]

/-- Whether a value is a double that is no number. -/
def MetricValue.isNonFinite : MetricValue → Bool
  | .float x => !x.isFinite
  | _ => false

theorem carriesValue_tree {v : MetricValue} (h : v.isNonFinite = false) :
    CarriesValue v v.tree := by
  cases v with
  | float x =>
    have hFinite : x.isFinite = true := by simpa [MetricValue.isNonFinite] using h
    simp [MetricValue.tree, CarriesValue, hFinite]
  | _ => rfl

theorem carriesPoint_tree {points : List MetricPoint}
    (h : ∀ p ∈ points, p.value.isNonFinite = false) :
    List.Forall₂ CarriesPoint points (points.map MetricPoint.tree) := by
  rw [List.forall₂_map_right_iff, List.forall₂_same]
  exact fun p hMem => ⟨p.value.tree, rfl, carriesValue_tree (h p hMem)⟩

/-! ## Reading back -/

/-- The token of the tree of a value. -/
def MetricValue.token (v : MetricValue) : Token :=
  match v.tree with
  | .string s => .text s
  | t => .plain t

/-- The tokens of the object of a point. -/
def MetricPoint.tokens (p : MetricPoint) : List Token :=
  [.beginObject, .text "name", .colon, .text p.name, .comma, .text "time", .colon,
    .plain (.int p.time.toInt), .comma, .text "value", .colon, p.value.token, .endObject]

/-- A value is one token, up to the character behind it. -/
theorem lexes_value (v : MetricValue) {c : Char} {t : Token}
    (hBehind : Text.Json.punctuation? c = some t) :
    Lexes (v.json.toList ++ [c]) [v.token, t] := by
  cases v with
  | int n =>
    exact lexes_plain (Text.Json.plain?_intText _) (fun _ => Text.Json.isPlain_of_mem_intText)
      hBehind
  | float x =>
    by_cases hFinite : x.isFinite = true
    · have hToken : (MetricValue.float x).token = .plain (.real x) := by
        simp [MetricValue.token, MetricValue.tree, hFinite]
      rw [hToken]
      exact lexes_plain (Text.Json.plain?_json hFinite)
        (fun _ => Text.Json.isPlain_of_mem_json hFinite) hBehind
    · have hToken : (MetricValue.float x).token = .plain .null := by
        simp [MetricValue.token, MetricValue.tree, hFinite]
      have hText : (MetricValue.float x).json = "null" := by
        simp [MetricValue.json, Number.Double.json, hFinite]
      rw [hToken, hText]
      exact lexes_plain rfl (List.all_eq_true.mp rfl) hBehind
  | bool b =>
    cases b
    · exact lexes_plain rfl (List.all_eq_true.mp rfl) hBehind
    · exact lexes_plain rfl (List.all_eq_true.mp rfl) hBehind
  | text s => exact (lexes_string s).append (lexes_punctuation hBehind)

theorem lexes_key (key : String) :
    Lexes ((Text.Json.string key).toList ++ [':']) [.text key, .colon] :=
  (lexes_string key).append (lexes_punctuation rfl)

/-- A point is cut into the tokens of its object. -/
theorem lexes_point (p : MetricPoint) : Lexes p.json.toList p.tokens := by
  have hText : p.json.toList = ['\x7b'] ++ ((Text.Json.string "name").toList ++ [':']) ++
      ((Text.Json.string p.name).toList ++ [',']) ++
      ((Text.Json.string "time").toList ++ [':']) ++
      ((Number.intText p.time.toInt).toList ++ [',']) ++
      ((Text.Json.string "value").toList ++ [':']) ++ (p.value.json.toList ++ ['\x7d']) := by
    have hName : (Text.Json.string "name").toList = "\"name\"".toList := rfl
    have hTime : (Text.Json.string "time").toList = "\"time\"".toList := rfl
    have hValue : (Text.Json.string "value").toList = "\"value\"".toList := rfl
    rw [hName, hTime, hValue]
    simp [MetricPoint.json]
  have hOpen : Lexes ['\x7b'] [.beginObject] := lexes_punctuation rfl
  have hName : Lexes ((Text.Json.string p.name).toList ++ [',']) [.text p.name, .comma] :=
    (lexes_string p.name).append (lexes_punctuation rfl)
  have hTime : Lexes ((Number.intText p.time.toInt).toList ++ [','])
      [.plain (.int p.time.toInt), .comma] :=
    lexes_plain (Text.Json.plain?_intText _) (fun _ => Text.Json.isPlain_of_mem_intText) rfl
  have hValue : Lexes (p.value.json.toList ++ ['\x7d']) [p.value.token, .endObject] :=
    lexes_value p.value rfl
  rw [hText]
  exact (((((hOpen.append (lexes_key "name")).append hName).append (lexes_key "time")).append
    hTime).append (lexes_key "value")).append hValue

/-- The tokens of the array of a batch. -/
def batchTokens (points : List MetricPoint) : List Token :=
  .beginArray :: ([Token.comma].intercalate (points.map MetricPoint.tokens) ++ [.endArray])

theorem lexes_batch (points : List MetricPoint) :
    Lexes (batchJson points).toList (batchTokens points) := by
  have hOpen : Lexes ['['] [.beginArray] := lexes_punctuation rfl
  have hClose : Lexes [']'] [.endArray] := lexes_punctuation rfl
  have hComma : Lexes [','] [.comma] := lexes_punctuation rfl
  have hItems := Lexes.intercalate hComma fun p (_ : p ∈ points) => lexes_point p
  have hAll := (hOpen.append hItems).append hClose
  simpa [batchJson, batchTokens, Function.comp_def] using hAll

theorem step_valueToken (v : MetricValue) (frames : List Text.Json.Frame) (mayEnd : Bool) :
    Parser.step (.value frames mayEnd) v.token = some (.after v.tree frames) := by
  unfold MetricValue.token
  split
  case h_1 hTree =>
    rw [hTree]
    rfl
  case h_2 => rfl

/-- The tokens of a point are put together to its tree. -/
theorem foldlM_pointTokens (p : MetricPoint) (frames : List Text.Json.Frame) (mayEnd : Bool) :
    p.tokens.foldlM Parser.step (.value frames mayEnd) = some (.after p.tree frames) := by
  have hValue := step_valueToken p.value
    (.member [("time", .int p.time.toInt), ("name", .string p.name)] "value" :: frames) false
  -- Up to the value the tokens do not depend on its kind.
  calc p.tokens.foldlM Parser.step (.value frames mayEnd)
      = [p.value.token, .endObject].foldlM Parser.step (.value
          (.member [("time", .int p.time.toInt), ("name", .string p.name)] "value" :: frames)
          false) := rfl
    _ = some (.after p.tree frames) := by
      rw [List.foldlM_cons, hValue]
      rfl

/-- The tokens of an array that has been opened, once its first item is read. -/
theorem foldlM_items (points : List MetricPoint) (t : Tree) (done : List Tree) :
    (points.flatMap (fun p => .comma :: p.tokens) ++ [Token.endArray]).foldlM Parser.step
      (.after t [.items done]) =
        some (.after (.array (done.reverse ++ t :: points.map MetricPoint.tree)) []) := by
  induction points generalizing t done with
  | nil => simp [Parser.step]
  | cons p rest ih =>
    have hPoint := foldlM_pointTokens p [.items (t :: done)] false
    simp only [List.flatMap_cons, List.cons_append, List.append_assoc, List.foldlM_cons,
      List.foldlM_append, Parser.step, Option.bind_eq_bind, Option.bind_some, hPoint] at ih ⊢
    rw [ih]
    simp

theorem intercalate_comma (p : MetricPoint) (rest : List MetricPoint) :
    [Token.comma].intercalate ((p :: rest).map MetricPoint.tokens) =
      p.tokens ++ rest.flatMap fun q => .comma :: q.tokens := by
  induction rest generalizing p with
  | nil => simp [List.intercalate]
  | cons q rest ih =>
    rw [List.map_cons, List.map_cons, List.intercalate_cons_cons, ← List.map_cons, ih]
    simp

/-- **The body of a batch reads back as an array with the objects of its points**, in their
order. -/
theorem read?_batchJson (points : List MetricPoint) :
    Text.Json.read? (batchJson points) = some (.array (points.map MetricPoint.tree)) := by
  have hParsed : (batchTokens points).foldlM Parser.step (.value [] false) =
      some (.after (.array (points.map MetricPoint.tree)) []) := by
    cases points with
    | nil => rfl
    | cons p rest =>
      have hOpen : Parser.step (.value [] false) .beginArray =
          some (.value [.items []] true) := rfl
      rw [batchTokens, intercalate_comma, List.foldlM_cons, hOpen, Option.bind_eq_bind,
        Option.bind_some, List.append_assoc, List.foldlM_append, foldlM_pointTokens,
        Option.bind_eq_bind, Option.bind_some, foldlM_items]
      rfl
  rw [Text.Json.read?, Text.Json.tokens?_of_lexes (lexes_batch points), Option.bind_some, hParsed]
  rfl

/-! ## Requests -/

namespace Mackerel

/-- The batch decides nothing of the request but the body: for one service all batches fail in the
same way, and not for a value, or all are posted in the same way. -/
theorem request_cases (client : Client) (service : String) :
    (∃ e, (∀ name value, e ≠ .invalidValue name value) ∧
      ∀ points, client.request service points = .error e) ∨
    ∃ r : Request, ∀ points,
      client.request service points = .ok { r with body := batchJson points } := by
  unfold Client.request
  cases hUrl : client.endpoint service with
  | error e =>
    refine .inl ⟨e, ?_, fun _ => rfl⟩
    rw [Client.endpoint] at hUrl
    split at hUrl <;> cases hUrl
    exact fun _ _ => ExportError.noConfusion
  | ok url =>
    rcases client.post_cases url with ⟨cause, hError⟩ | ⟨r, -, -, -, hPost⟩
    · exact .inl ⟨_, fun _ _ => ExportError.noConfusion, fun _ => hError _⟩
    · exact .inr ⟨r, fun _ => hPost _⟩

/-- A request that a client makes posts the JSON text of the batch. -/
theorem body_of_exportBatch {client : Client} {network : Request → Delivery} {service : String}
    {points : List MetricPoint} {request : Request}
    (h : (client.exportBatch network service points).1 = some request) :
    request.body = batchJson points := by
  rw [Client.exportBatch] at h
  rcases request_cases client service with ⟨e, -, hError⟩ | ⟨r, hRequest⟩
  · rw [hError] at h
    cases h
  · rw [hRequest] at h
    cases h
    rfl

/-- **The posted body loses nothing.**  It reads back as one array with an object for each point,
which has the name, the time and the value of the point, each kind of value as itself; so two
batches with the same body are the same. -/
theorem posted_body_reads_back {client : Client} {network : Request → Delivery} {service : String}
    {points : List MetricPoint} {request : Request}
    (hFinite : ∀ p ∈ points, p.value.isNonFinite = false)
    (hPosted : (client.exportBatch network service points).1 = some request) :
    (∃ trees, Text.Json.read? request.body = some (.array trees) ∧
      List.Forall₂ CarriesPoint points trees) ∧
    ∀ (client' : Client) (network' : Request → Delivery) (service' : String)
      (points' : List MetricPoint) (request' : Request),
      (∀ p ∈ points', p.value.isNonFinite = false) →
      (client'.exportBatch network' service' points').1 = some request' →
      request'.body = request.body → points' = points := by
  have hBody := body_of_exportBatch hPosted
  refine ⟨⟨_, hBody ▸ read?_batchJson points, carriesPoint_tree hFinite⟩, ?_⟩
  intro client' network' service' points' request' hFinite' hPosted' hSame
  rw [hBody, body_of_exportBatch hPosted'] at hSame
  have hTrees : points'.map MetricPoint.tree = points.map MetricPoint.tree := by
    have hRead := read?_batchJson points'
    rw [hSame, read?_batchJson points] at hRead
    exact (Tree.array.inj (Option.some.inj hRead)).symm
  exact eq_of_carriesPoint (carriesPoint_tree hFinite') (hTrees ▸ carriesPoint_tree hFinite)

/-- A client of a backend on the same machine. -/
def localClient : Client :=
  ⟨"key", ⟨"http", some ⟨"", none, some (.domain "localhost"), none⟩, .segments [""], none, none⟩⟩

/-- An integer, a double, a text and a truth value that look alike, and a name with a quote, a
backslash, a control character and one beyond ASCII. -/
def lookAlikes : List MetricPoint :=
  [⟨"a\"\\\x01é", -1, .int (-9223372036854775808)⟩, ⟨"x", 0, .int 10⟩, ⟨"x", 0, .float (.ofInt 10)⟩,
    ⟨"x", 0, .text "10"⟩, ⟨"x", 0, .bool true⟩]

theorem posted_body_reads_back_look_alikes :
    (∀ p ∈ lookAlikes, p.value.isNonFinite = false) ∧
      ∃ request, (localClient.exportBatch (fun _ => .ok ⟨200, []⟩) "s" lookAlikes).1 =
        some request ∧ ∃ trees, Text.Json.read? request.body = some (.array trees) ∧
          List.Forall₂ CarriesPoint lookAlikes trees := by
  have hFinite : ∀ p ∈ lookAlikes, p.value.isNonFinite = false := by decide
  obtain ⟨request, hPosted⟩ : ∃ request, (localClient.exportBatch (fun _ => .ok ⟨200, []⟩) "s"
      lookAlikes).1 = some request := ⟨_, rfl⟩
  exact ⟨hFinite, request, hPosted, (posted_body_reads_back hFinite hPosted).1⟩

end Mackerel

end SqlMetrics
