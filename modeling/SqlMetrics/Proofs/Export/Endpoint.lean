import SqlMetrics.Export.Mackerel
import SqlMetrics.Proofs.Url.Segments

/-!
# The endpoints of services

The endpoint of a service is the base with five segments added to its path, the fourth of which says
the name of the service.  Dot segments and names with characters that are dropped are the exceptions:
they share their endpoints with others.

- **Endpoints**: `endpoint_eq` says what the path of an endpoint is, for every name.
- **Requests**: a request goes where the endpoint is (`sent_to_endpoint`), whatever it posts.
- **Names**: `endpoint_of_service` sets the endpoints of the services of one client beside each other.
-/

namespace SqlMetrics

namespace Url

/-- Two URLs that differ at most in their paths. -/
def SameButPath (u v : Url) : Prop :=
  u.scheme = v.scheme ∧ u.authority = v.authority ∧ u.query = v.query ∧ u.fragment = v.fragment

end Url

namespace Mackerel

open Url (IsName Leads StandsAlone kept openSegments pushSegment segmentSet trimSegments)

/-! ## Endpoints -/

/-- The segments that stand before the name of the service. -/
def servicesPath (front : List String) : List String :=
  front ++ ["api", "v0", "services"]

/-- What the name of a service leaves between the segments `services` and `tsdb`, and what it leaves
of the segments before. -/
def throughService (special : Bool) (front : List String) (service : String) : List String :=
  pushSegment (segmentSet special) (servicesPath front) service

theorem openSegments_servicesPath (front : List String) :
    openSegments (servicesPath front) = servicesPath front := by
  apply Url.openSegments_of_ne
  cases front <;> simp [servicesPath]

/-- The words of an endpoint are segments as they are. -/
theorem pushSegment_word {special : Bool} {segments : List String} (word : String)
    (h : word ∈ ["api", "v0", "services", "tsdb"]) :
    pushSegment (segmentSet special) segments word = openSegments segments ++ [word] := by
  simp only [List.mem_cons, List.not_mem_nil, or_false] at h
  rcases h with rfl | rfl | rfl | rfl <;> cases special <;> rfl

/-- A service is told by one segment, if its name is one that a path takes as it is. -/
theorem throughService_of_isName {special : Bool} {front : List String} {service : String}
    (h : IsName service) :
    throughService special front service =
      servicesPath front ++ [String.ofList (Url.escape (segmentSet special) service.toList)] := by
  rw [throughService, Url.pushSegment_of_isName h, openSegments_servicesPath]

theorem throughService_of_dots {special : Bool} {front : List String} {service : String}
    (h : service = "." ∨ service = "..") :
    throughService special front service = servicesPath front := by
  rcases h with rfl | rfl <;> rfl

/-- Characters that are dropped make no difference, unless a dot segment is left. -/
theorem throughService_of_kept {special : Bool} {front : List String} {service : String}
    (hDot : service ≠ ".") (hDots : service ≠ "..") :
    throughService special front service =
      if kept service = ['.'] then servicesPath front ++ [""]
      else if kept service = ['.', '.'] then front ++ ["api", "v0", ""]
      else servicesPath front ++
        [String.ofList (Url.escape (segmentSet special) (kept service))] := by
  split
  · rename_i hKept
    rw [throughService, pushSegment, if_neg (by simp [hDot, hDots])]
    rw [kept] at hKept
    simp only [hKept, openSegments_servicesPath]
  · split
    · rename_i hKept
      have hUp : Url.dropSegment (servicesPath front) = front ++ ["api", "v0"] := by
        simp [Url.dropSegment, servicesPath, Url.isDriveLetter]
      rw [throughService, pushSegment, if_neg (by simp [hDot, hDots])]
      rw [kept] at hKept
      simp only [hKept, openSegments_servicesPath, hUp, List.append_assoc, List.cons_append,
        List.nil_append]
    · rename_i hKeptDot hKeptDots
      rw [throughService, Url.pushSegment_of_kept hDot hDots hKeptDot hKeptDots,
        openSegments_servicesPath]

/-- More than a root stands before the last word. -/
theorem openSegments_throughService (special : Bool) (front : List String) (service : String) :
    openSegments (throughService special front service) = throughService special front service := by
  apply Url.openSegments_of_ne
  by_cases hDots : service = "." ∨ service = ".."
  · rw [throughService_of_dots hDots]
    cases front <;> simp [servicesPath]
  · obtain ⟨hDot, hDots⟩ := not_or.mp hDots
    rw [throughService_of_kept hDot hDots]
    split
    · cases front <;> simp [servicesPath]
    · split <;> cases front <;> simp [servicesPath]

/-- The URL under a base that is told by a front and a service. -/
def serviceUrl (base : Url) (front : List String) (service : String) : Url :=
  { base with
    path := .segments (throughService (Url.isSpecial base.scheme) front service ++ ["tsdb"]) }

/-- **The path of an endpoint**: what the name of the service comes to after the words before it,
and the last word. -/
theorem endpoint_eq {client : Client} {segments : List String}
    (h : client.base.path = .segments segments) (service : String) :
    client.endpoint service =
      .ok (serviceUrl client.base (openSegments (trimSegments segments)) service) := by
  have hGrown (front : List String) (word : String) (hWord : word ≠ "") :
      openSegments (front ++ [word]) = front ++ [word] :=
    Url.openSegments_of_ne (by simp [List.append_eq_cons_iff, hWord])
  have hFold : (endpointSegments service).foldl
      (pushSegment (segmentSet (Url.isSpecial client.base.scheme))) (trimSegments segments) =
      throughService (Url.isSpecial client.base.scheme) (openSegments (trimSegments segments))
        service ++ ["tsdb"] := by
    simp only [endpointSegments, List.foldl_cons, List.foldl_nil]
    rw [pushSegment_word "api" (by simp), pushSegment_word "v0" (by simp),
      hGrown _ _ (by decide), pushSegment_word "services" (by simp), hGrown _ _ (by decide),
      pushSegment_word "tsdb" (by simp)]
    have hServices (front : List String) :
        front ++ ["api"] ++ ["v0"] ++ ["services"] = servicesPath front := by
      simp [servicesPath]
    rw [hServices, ← throughService, openSegments_throughService]
  rw [Client.endpoint, Url.extend?, h, serviceUrl, ← hFold]
  rfl

/-! ## Requests -/

/-- A body cannot be posted to a URL, whatever it says, or is posted where the URL leads. -/
theorem Client.post_cases (client : Client) (url : Url) :
    (∃ cause, ∀ body, client.post url body = .error (.http cause)) ∨
    ∃ r : Request, r.scheme = url.scheme ∧
      r.host = (url.authority.map Url.Authority.hostText).getD "" ∧ r.target = url.target ∧
      ∀ body, client.post url body = .ok { r with body := body } := by
  unfold post
  -- None of the three checks looks at the body, nor does any of them look past one that fails.
  by_cases hHost : (url.authority.bind Url.Authority.host).isNone = true
  · exact .inl ⟨_, fun body => if_pos hHost⟩
  by_cases hKey : (!isHeaderValue client.apiKey) = true
  · exact .inl ⟨_, fun body => by rw [if_neg hHost, if_pos hKey]⟩
  by_cases hScheme : (url.scheme != "http" && url.scheme != "https") = true
  · exact .inl ⟨_, fun body => by rw [if_neg hHost, if_neg hKey, if_pos hScheme]⟩
  · simp only [if_neg hHost, if_neg hKey, if_neg hScheme]
    exact .inr ⟨⟨_, _, _, _, _, _, _, _, ""⟩, rfl, rfl, rfl, fun _ => rfl⟩

/-- A request that a client makes goes where the endpoint of the service is. -/
theorem sent_to_endpoint {client : Client} {network : Request → Delivery} {service : String}
    {points : List MetricPoint} {request : Request} {url : Url}
    (hUrl : client.endpoint service = .ok url)
    (h : (client.exportBatch network service points).1 = some request) :
    request.scheme = url.scheme ∧ request.host = (url.authority.map Url.Authority.hostText).getD "" ∧
      request.target = url.target := by
  unfold Client.exportBatch Client.request at h
  simp only [hUrl] at h
  rcases client.post_cases url with ⟨cause, hError⟩ | ⟨r, hScheme, hHost, hTarget, hPost⟩
  · simp [hError] at h
  · simp only [hPost, Option.some.injEq] at h
    exact h ▸ ⟨hScheme, hHost, hTarget⟩

/-! ## Names -/

/-- A client that was set up has a base with segments. -/
theorem exists_segments {apiKey apiBase : String} {client : Client}
    (h : Client.setUp apiKey apiBase = .ok client) :
    ∃ segments, client.base.path = .segments segments := by
  unfold Client.setUp at h
  dsimp only at h
  split at h
  · cases h
  · split at h
    · cases h
    · rename_i segments hPath
      cases h
      exact ⟨segments, hPath⟩

section Names

variable {base : Url} {front : List String} {service other : String}

/-- The segment that tells a service. -/
def serviceSegment (base : Url) (service : String) : String :=
  String.ofList (Url.escape (segmentSet (Url.isSpecial base.scheme)) service.toList)

theorem path_of_isName (h : IsName service) :
    (serviceUrl base front service).path =
      .segments (front ++ ["api", "v0", "services", serviceSegment base service, "tsdb"]) := by
  rw [serviceUrl, throughService_of_isName h]
  simp [servicesPath, serviceSegment]

theorem unescape_serviceSegment :
    Url.unescape (serviceSegment base service).toList = Text.encode service := by
  rw [serviceSegment, String.toList_ofList, Url.unescape_escape (Url.segmentSet_percent _),
    Text.encode]

theorem standsAlone_serviceSegment (h : IsName service) (isFile : Bool) :
    StandsAlone (Url.isSpecial base.scheme) isFile (serviceSegment base service) := by
  have hNot {cs : List Char} (hOther : service ≠ String.ofList cs) : service.toList ≠ cs := by
    rintro rfl
    exact hOther String.ofList_toList.symm
  exact Url.standsAlone_escape (hNot h.1) (hNot h.2.1)

/-- Services that are told by the same segment are the same. -/
theorem serviceSegment_injective
    (h : serviceSegment base service = serviceSegment base other) : service = other :=
  String.toList_inj.mp
    (Url.escape_injective (Url.segmentSet_percent _) (String.ofList_injective h))

/-- Only the segment of the service tells the targets of two services apart. -/
theorem eq_of_target_eq (h : IsName service) (hOther : IsName other)
    (hSame : (serviceUrl base front service).target = (serviceUrl base front other).target) :
    service = other := by
  have hTarget {name : String} (hName : IsName name) :
      (serviceUrl base front name).target.toList =
        (Url.Path.segments (servicesPath front)).toText.toList ++
          ('/' :: (serviceSegment base name).toList ++ ("/tsdb".toList ++
            ((base.query.map ("?" ++ ·)).getD "").toList)) := by
    rw [Url.target, path_of_isName hName]
    simp [servicesPath, serviceUrl, Url.Path.toText, String.toList_join]
  -- What stands before the segment and behind it is the same for both.
  have hLists := congrArg String.toList hSame
  rw [hTarget h, hTarget hOther] at hLists
  have hSegment := List.append_cancel_right (List.append_cancel_left hLists)
  exact serviceSegment_injective (String.toList_inj.mp (List.cons.inj hSegment).2)

theorem guardText_of_isName (h : IsName service) :
    (serviceUrl base front service).path.guardText =
      (Url.Path.segments (servicesPath front)).guardText := by
  rw [path_of_isName h, servicesPath]
  cases front with
  | nil => rfl
  | cons first rest =>
    by_cases hEmpty : first = ""
    · subst hEmpty
      cases rest <;> rfl
    · simp [Url.Path.guardText, hEmpty]

/-- Two endpoints that are written alike ask for the same target. -/
theorem target_eq_of_text_eq (h : IsName service) (hOther : IsName other)
    (hSame : (serviceUrl base front service).text = (serviceUrl base front other).text) :
    (serviceUrl base front service).target = (serviceUrl base front other).target := by
  have hLists := congrArg String.toList hSame
  unfold Url.text at hLists
  rw [guardText_of_isName h, guardText_of_isName hOther] at hLists
  simp only [String.toList_append] at hLists
  exact String.toList_inj.mp (List.append_cancel_left (List.append_cancel_right hLists))

/-- What is left of a name without the characters that are dropped is a name that a path takes, or a
dot segment. -/
theorem isName_kept (hDot : kept service ≠ ['.']) (hDots : kept service ≠ ['.', '.']) :
    IsName (String.ofList (kept service)) := by
  refine ⟨?_, ?_, fun c hMem => ?_⟩
  · exact fun hSame => hDot (String.ofList_injective hSame)
  · exact fun hSame => hDots (String.ofList_injective hSame)
  · rw [String.toList_ofList] at hMem
    simpa using (List.mem_filter.mp hMem).2

/-- Where the endpoint of a service leads whose name is no dot segment and has characters that are
dropped: to the one of the name without them, if that is no dot segment either. -/
theorem serviceUrl_of_kept (hDot : service ≠ ".") (hDots : service ≠ "..") :
    (kept service = ['.'] → (serviceUrl base front service).path =
      .segments (front ++ ["api", "v0", "services", "", "tsdb"])) ∧
    (kept service = ['.', '.'] → (serviceUrl base front service).path =
      .segments (front ++ ["api", "v0", "", "tsdb"])) ∧
    (kept service ≠ ['.'] → kept service ≠ ['.', '.'] →
      serviceUrl base front service = serviceUrl base front (String.ofList (kept service))) := by
  refine ⟨fun hKept => ?_, fun hKept => ?_, fun hKeptDot hKeptDots => ?_⟩
  · simp [serviceUrl, throughService_of_kept hDot hDots, hKept, servicesPath]
  · simp [serviceUrl, throughService_of_kept hDot hDots, hKept]
  · rw [serviceUrl, serviceUrl, throughService_of_kept hDot hDots, if_neg hKeptDot,
      if_neg hKeptDots, throughService_of_isName (isName_kept hKeptDot hKeptDots),
      String.toList_ofList]

end Names

/-- **The endpoint of a service.**  For every client that was set up there is a front, the segments
of its base without an empty last one, such that for all services:
1. the endpoint keeps everything of the base but the path, and requests are sent there;
2. for a name that a path takes as it is, the path is the front and five segments, the fourth of
   which is the name when its escapes are read, and is found as it stands by a reader of the path;
3. two such services whose endpoints are written alike, or ask for the same target, are the same;
4. a dot segment is left out of the path;
5. a name with characters that are dropped shares the endpoint of the name without them, and where a
   dot segment is left, it acts as one. -/
theorem endpoint_of_service {apiKey apiBase : String} {client : Client}
    (hSetUp : Client.setUp apiKey apiBase = .ok client) :
    ∃ segments front, client.base.path = .segments segments ∧ Leads segments front ∧
      ∃ url : String → Url,
        (∀ service, client.endpoint service = .ok (url service) ∧
          (url service).SameButPath client.base ∧
          ∀ network points request,
            (client.exportBatch network service points).1 = some request →
            request.scheme = (url service).scheme ∧
            request.host = ((url service).authority.map Url.Authority.hostText).getD "" ∧
            request.target = (url service).target) ∧
        (∀ service, IsName service → ∃ e,
          (url service).path = .segments (front ++ ["api", "v0", "services", e, "tsdb"]) ∧
          Url.unescape e.toList = Text.encode service ∧
          ∀ isFile, StandsAlone (Url.isSpecial client.base.scheme) isFile e) ∧
        (∀ service other, IsName service → IsName other →
          ((url service).text = (url other).text ∨ (url service).target = (url other).target) →
          service = other) ∧
        (∀ service, service = "." ∨ service = ".." →
          (url service).path = .segments (front ++ ["api", "v0", "services", "tsdb"])) ∧
        ∀ service, service ≠ "." → service ≠ ".." →
          (kept service = ['.'] →
            (url service).path = .segments (front ++ ["api", "v0", "services", "", "tsdb"])) ∧
          (kept service = ['.', '.'] →
            (url service).path = .segments (front ++ ["api", "v0", "", "tsdb"])) ∧
          (kept service ≠ ['.'] → kept service ≠ ['.', '.'] →
            url service = url (String.ofList (kept service))) := by
  obtain ⟨segments, hPath⟩ := exists_segments hSetUp
  have hEndpoint := endpoint_eq hPath
  refine ⟨segments, _, hPath, Url.leads_openSegments_trimSegments segments,
    serviceUrl client.base (openSegments (trimSegments segments)), ?keeps, ?names, ?apart, ?dots,
    fun service => serviceUrl_of_kept⟩
  case keeps =>
    intro service
    exact ⟨hEndpoint service, ⟨rfl, rfl, rfl, rfl⟩,
      fun _ _ _ hSent => sent_to_endpoint (hEndpoint service) hSent⟩
  case names =>
    intro service hName
    exact ⟨serviceSegment client.base service, path_of_isName hName, unescape_serviceSegment,
      standsAlone_serviceSegment hName⟩
  case apart =>
    rintro service other hName hOther (hText | hTarget)
    · exact eq_of_target_eq hName hOther (target_eq_of_text_eq hName hOther hText)
    · exact eq_of_target_eq hName hOther hTarget
  case dots =>
    intro service hDots
    simp [serviceUrl, throughService_of_dots hDots, servicesPath]

/-- A client of a backend under a path of some segments. -/
def clientUnder (segments : List String) : Client :=
  ⟨"key", ⟨"https", some ⟨"", none, some (.domain "example.com"), none⟩, .segments segments, none,
    none⟩⟩

/-- A name with a slash, a percent sign and a blank becomes one segment under a base that has a path
of its own, and no other service shares its endpoint. -/
theorem endpoint_of_service_slash :
    Client.setUp "key" "https://example.com/mackerel/" = .ok (clientUnder ["mackerel", ""]) ∧
      IsName "a/%2e b" ∧ ∃ url, (clientUnder ["mackerel", ""]).endpoint "a/%2e b" = .ok url ∧
        url.text = "https://example.com/mackerel/api/v0/services/a%2F%252e%20b/tsdb" ∧
        ∀ other, IsName other →
          (clientUnder ["mackerel", ""]).endpoint other = .ok url → other = "a/%2e b" := by
  have hParse : Url.parse? "https://example.com/mackerel/" =
      some (clientUnder ["mackerel", ""]).base := by cbv
  have hSetUp : Client.setUp "key" "https://example.com/mackerel/" =
      .ok (clientUnder ["mackerel", ""]) := by
    simp [Client.setUp, hParse, clientUnder]
  have hText : ((clientUnder ["mackerel", ""]).endpoint "a/%2e b").map Url.text =
      .ok "https://example.com/mackerel/api/v0/services/a%2F%252e%20b/tsdb" := by cbv
  have hName : IsName "a/%2e b" := ⟨by decide, by decide, by simp [Url.isDropped]⟩
  obtain ⟨-, -, -, -, url, hUrl, -, hApart, -⟩ := endpoint_of_service hSetUp
  refine ⟨hSetUp, hName, url _, (hUrl _).1, ?_, fun other hOther hSame => ?_⟩
  · rw [(hUrl _).1] at hText
    exact Except.ok.inj hText
  · have hUrls : url other = url "a/%2e b" := Except.ok.inj ((hUrl other).1.symm.trans hSame)
    exact hApart _ _ hOther hName (.inl (congrArg Url.text hUrls))

/-- Dot segments and characters that are dropped leave services without endpoints of their own: one
is posted to a path that names no service, and two others to the same path. -/
theorem services_share_endpoints :
    Client.setUp "key" "https://example.com/" = .ok (clientUnder [""]) ∧
      (clientUnder [""]).endpoint ".." =
        .ok { (clientUnder [""]).base with path := .segments ["api", "v0", "services", "tsdb"] } ∧
      (clientUnder [""]).endpoint "." = (clientUnder [""]).endpoint ".." ∧
      (clientUnder [""]).endpoint "a\tb" = (clientUnder [""]).endpoint "ab" ∧
      ¬∀ service, ∃ url e, (clientUnder [""]).endpoint service = .ok url ∧
        url.path = .segments ["api", "v0", "services", e, "tsdb"] := by
  have hParse : Url.parse? "https://example.com/" = some (clientUnder [""]).base := by cbv
  refine ⟨by simp [Client.setUp, hParse, clientUnder], rfl, rfl, rfl, fun hFive => ?_⟩
  obtain ⟨url, e, hUrl, hPath⟩ := hFive ".."
  cases hUrl
  cases hPath

end Mackerel

end SqlMetrics
