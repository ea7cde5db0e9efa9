import FieldDiscovery.Lib.Call
import FieldDiscovery.Lib.IpAddress
import FieldDiscovery.Lib.JsonLoads
import FieldDiscovery.Unifi.Records

/-!
# Paging through a resource

`UniFiClient.get_pages` with the request under it. The controller is any function of the requests
sent to it so far. Three limits end the reading: the pages, the items, and the first short page. For
a controller that serves a list they meet in `getPages_exact`: the pages of one reading are
consecutive slices of the list (`pagesFrom_serves`), and a reading of any controller is bounded by
its own limits (`pagesFrom_bounded`).
-/

namespace FieldDiscovery.Unifi

open Py

/-! ## Requests -/

/-- `HttpResponse`, without the headers, which only `login` reads. -/
structure HttpResponse where
  status : Int
  body : List Byte

/-- What `HttpTransport.request` is called with. The URL is kept as the two texts that `urljoin`
joins. -/
structure HttpRequest where
  method : Str
  origin : Str
  path : Str
  headers : Dict Str Str
  body : Option (List Byte)
  verifyTls : Bool
  timeout : ℚ

/-- The answer to the last of the requests sent. -/
abbrev Controller := List HttpRequest → Except Exc HttpResponse

/-- A call that sends requests; its state is the requests sent. -/
abbrev Exchange (α : Type) := Call (List HttpRequest) Exc α

/-- `transport.request` -/
def Controller.request (controller : Controller) (r : HttpRequest) : Exchange HttpResponse :=
  fun sent => (controller (sent ++ [r]), sent ++ [r])

/-- The API types of `UniFiEndpoint`. -/
inductive ApiType where
  | modern
  | legacy
  deriving DecidableEq

/-- `UniFiEndpoint` -/
structure UniFiEndpoint where
  url : Str
  apiType : ApiType
  verifyTls : Bool
  timeoutSeconds : ℚ

/-- `_LOGIN_PATHS` -/
def ApiType.loginPath : ApiType → Str
  | modern => str "/api/auth/login"
  | legacy => str "/api/login"

/-- `UniFiClient`, with the bounds that its `__post_init__` requires. -/
structure UniFiClient where
  endpoint : UniFiEndpoint
  pageSize : Nat := 200
  maxPages : Nat := 25
  maxItems : Nat := 5000
  headers : Dict Str Str := []
  positive : 1 ≤ pageSize ∧ 1 ≤ maxPages ∧ 1 ≤ maxItems

/-- `_READ_ONLY_RESOURCES` -/
def readOnlyResources : List Str :=
  [str "sites", str "devices", str "clients", str "networks", str "wlans", str "profiles",
    str "alarms", str "events"]

/-- `_RESOURCE_PATHS` -/
def resourcePaths : Dict Str Str :=
  [(str "devices", str "stat/device"), (str "clients", str "stat/sta"),
    (str "networks", str "rest/networkconf"), (str "wlans", str "rest/wlanconf"),
    (str "profiles", str "rest/portconf"), (str "alarms", str "stat/alarm"),
    (str "events", str "stat/event")]

/-- The characters that `urlsplit` drops. -/
def isDropped (c : CodePoint) : Bool := (str "\t\r\n").contains c

/-- The path names no other origin and has no fragment. A path that starts with a slash has no
scheme, and a host only behind two slashes. -/
def originRelative (path : Str) : Bool :=
  let cleaned := path.filter fun c => !isDropped c
  let netloc := if (str "//").isPrefixOf cleaned then
      (cleaned.drop 2).takeWhile fun c => !(str "/?#").contains c
    else []
  let fragment := (cleaned.dropWhile (· != cp '#')).tail
  (str "/").isPrefixOf path && !(str "//").isPrefixOf path && netloc.isEmpty && fragment.isEmpty

namespace UniFiClient

variable (c : UniFiClient)

/-- What the transport gets for a request of the client. -/
def httpRequest (method path : Str) (payload : Option (List Byte)) : HttpRequest where
  method := method
  origin := c.endpoint.url.rdropWhile (· = cp '/') ++ str "/"
  path := path.dropWhile (· = cp '/')
  headers :=
    let headers := c.headers.foldl (fun d h => Dict.set d h.1 h.2)
      [(str "Accept", str "application/json")]
    if payload.isSome then Dict.set headers (str "Content-Type") (str "application/json")
    else headers
  body := payload
  verifyTls := c.endpoint.verifyTls
  timeout := c.endpoint.timeoutSeconds

/-- `_request`; the payload is its serialization. -/
def request (controller : Controller) (method path : Str) (payload : Option (List Byte)) :
    Exchange HttpResponse :=
  let readRequest := method = str "GET" ∧ payload = none
  let loginRequest := method = str "POST" ∧ path = c.endpoint.apiType.loginPath
  if originRelative path = true ∧ (readRequest ∨ loginRequest) then
    controller.request (c.httpRequest method path payload)
  else Call.raise (.unifi (str "UniFi client refused a non-read-only operation"))

section

variable (floatRepr : Str → Str) (decode : List Byte → Option Str)

/-- `_document` -/
def document (response : HttpResponse) : Except Exc Json :=
  if response.body = [] then .ok (.dict [])
  else
    match Json.loadsBytes floatRepr decode response.body with
    | some document => .ok document
    | none => .error (.unifi (str "UniFi controller returned invalid JSON"))

/-- The `data` list of a page. -/
def pageItems (response : HttpResponse) : Except Exc (List Json) := do
  if response.status = 401 ∨ response.status = 403 then
    throw (.collectorAuthentication (str "UniFi controller denied read access"))
  if response.status < 200 ∨ 300 ≤ response.status then
    throw (.unifi (str "UniFi read failed with HTTP status " ++ intStr response.status))
  match ← document floatRepr decode response with
  | .dict items =>
    match Dict.get items (str "data") with
    | some (.list pageItems) => .ok pageItems
    | _ => .error (.unifi (str "UniFi response does not contain a data list"))
  | _ => .error (.unifi (str "UniFi response does not contain a data list"))

/-- `f"{base}?{urlencode({'_start': start, '_limit': limit})}"` -/
def pagePath (base : Str) (start limit : Nat) : Str :=
  base ++ str "?_start=" ++ natStr start ++ str "&_limit=" ++ natStr limit

/-- The pages from `page` on, of which `pages` may still be read. Fewer than `max_items` items are
held whenever a page is read, so the slice of it has a positive end. -/
def pagesFrom (controller : Controller) (base : Str) :
    Nat → Nat → List Json → Exchange (List Json)
  | 0, _, items => pure items
  | pages + 1, page, items => do
    let response ← c.request controller (str "GET")
      (pagePath base (page * c.pageSize) c.pageSize) none
    let pageItems ← Call.ofExcept (pageItems floatRepr decode response)
    let remaining := c.maxItems - items.length
    let items := items ++ pageItems.take remaining
    if c.maxItems ≤ items.length ∨ pageItems.length < c.pageSize then pure items
    else pagesFrom controller base pages (page + 1) items

/-- The path of a resource without its query. -/
def basePath (resource site : Str) : Except Exc Str :=
  let front := if c.endpoint.apiType = .modern then str "/proxy/network" else []
  if resource = str "sites" then .ok (front ++ str "/api/self/sites")
  else
    match resourcePaths.get resource with
    | some path => .ok (front ++ str "/api/s/" ++ site ++ str "/" ++ path)
    | none => .error .key

/-- `get_pages` -/
def getPages (controller : Controller) (resource site : Str) : Exchange (List Json) := do
  if resource ∉ readOnlyResources then
    Call.raise (.unifi (str "UniFi resource is not on the read-only allowlist"))
  else
    let base ← Call.ofExcept (c.basePath resource site)
    c.pagesFrom floatRepr decode controller base c.maxPages 0 []

/-! ## Paths -/

theorem originRelative_of_head {a : CodePoint} {rest : Str} (hslash : cp '/' ≠ a)
    (hkept : isDropped a = false) (hfragment : cp '#' ∉ cp '/' :: a :: rest) :
    originRelative (cp '/' :: a :: rest) = true := by
  have hclean : (cp '/' :: a :: rest).filter (fun c => !isDropped c) =
      cp '/' :: a :: rest.filter fun c => !isDropped c := by
    rw [List.filter_cons_of_pos (by decide), List.filter_cons_of_pos (by rw [hkept]; rfl)]
  have hnone : (cp '/' :: a :: rest.filter fun c => !isDropped c).dropWhile (· != cp '#') = [] := by
    rw [List.dropWhile_eq_nil_iff, ← hclean]
    intro c hc
    rw [bne_iff_ne]
    rintro rfl
    exact hfragment (List.mem_of_mem_filter hc)
  have hdouble : ∀ s : Str, (str "//").isPrefixOf (cp '/' :: a :: s) = false := by
    intro s
    change (cp '/' == cp '/' && (cp '/' == a && true)) = false
    rw [beq_false_of_ne hslash]
    rfl
  unfold originRelative
  simp only [hclean, hnone, hdouble]
  rfl

/-- A path of the client: it starts with one slash and has no fragment. -/
structure IsLocalPath (path : Str) : Prop where
  head : ∃ a rest, path = cp '/' :: a :: rest ∧ cp '/' ≠ a ∧ isDropped a = false
  fragment : cp '#' ∉ path

theorem IsLocalPath.originRelative {path : Str} (h : IsLocalPath path) :
    originRelative path = true := by
  obtain ⟨a, rest, rfl, hslash, hkept⟩ := h.head
  exact originRelative_of_head hslash hkept h.fragment

theorem IsLocalPath.append {path s : Str} (h : IsLocalPath path) (hs : cp '#' ∉ s) :
    IsLocalPath (path ++ s) := by
  obtain ⟨a, rest, rfl, hslash, hkept⟩ := h.head
  refine ⟨⟨a, rest ++ s, rfl, hslash, hkept⟩, fun hmem => ?_⟩
  rcases List.mem_append.mp hmem with hmem | hmem
  · exact h.fragment hmem
  · exact hs hmem

theorem IsLocalPath.page {base : Str} (h : IsLocalPath base) (start limit : Nat) :
    IsLocalPath (pagePath base start limit) :=
  ((((h.append (by decide)).append (notMem_natStr (by decide) _)).append (by decide)).append
    (notMem_natStr (by decide) _))

theorem basePath_local {resource site base : Str} (h : c.basePath resource site = .ok base)
    (hsite : resource = str "sites" ∨ cp '#' ∉ site) : IsLocalPath base := by
  have hfront : ∀ rest, cp '#' ∉ rest → IsLocalPath
      ((if c.endpoint.apiType = .modern then str "/proxy/network" else []) ++
        (str "/api/" ++ rest)) := by
    intro rest hrest
    rw [← List.append_assoc]
    refine IsLocalPath.append ?_ hrest
    split
    · exact ⟨⟨_, _, rfl, by decide, by decide⟩, by decide⟩
    · exact ⟨⟨_, _, rfl, by decide, by decide⟩, by decide⟩
  unfold basePath at h
  simp only at h
  split at h
  · obtain rfl := Except.ok.inj h
    exact hfront (str "self/sites") (by decide)
  · next hne =>
    have hsite := hsite.resolve_left hne
    split at h
    · next path hpath =>
      obtain rfl := Except.ok.inj h
      have hclean : cp '#' ∉ path :=
        (by decide : ∀ p ∈ resourcePaths, cp '#' ∉ p.2) _ (Dict.mem_of_get hpath)
      have hrest : cp '#' ∉ str "s/" ++ (site ++ (str "/" ++ path)) := by
        simp only [List.mem_append, not_or]
        exact ⟨by decide, hsite, by decide, hclean⟩
      have hapi : str "/api/s/" = str "/api/" ++ str "s/" := by decide
      rw [hapi]
      simp only [List.append_assoc]
      exact hfront _ hrest
    · cases h

/-- Behind a fragment the query is part of it, and no request is sent. -/
theorem originRelative_of_fragment {base : Str} (h : cp '#' ∈ base) (start limit : Nat) :
    originRelative (pagePath base start limit) = false := by
  have hkept : cp '#' ∈ base.filter fun c => !isDropped c :=
    List.mem_filter.mpr ⟨h, by decide⟩
  have hdrop : ((base.filter fun c => !isDropped c).dropWhile (· != cp '#')).isEmpty = false := by
    rw [List.isEmpty_eq_false_iff, Ne, List.dropWhile_eq_nil_iff]
    exact fun hall => absurd (hall _ hkept) (by decide)
  have hquery : cp '?' ∈ (str "?_start=" ++ natStr start ++ str "&_limit=" ++ natStr limit).filter
      fun c => !isDropped c :=
    List.mem_filter.mpr ⟨by simp [str], by decide⟩
  have hfragment : (((pagePath base start limit).filter fun c => !isDropped c).dropWhile
      (· != cp '#')).tail ≠ [] := by
    have hpath : pagePath base start limit =
        base ++ (str "?_start=" ++ natStr start ++ str "&_limit=" ++ natStr limit) := by
      simp only [pagePath, List.append_assoc]
    rw [hpath, List.filter_append, List.dropWhile_append, hdrop, if_neg (by decide),
      List.tail_append_of_ne_nil (List.isEmpty_eq_false_iff.mp hdrop)]
    exact List.append_ne_nil_of_right_ne_nil _ (List.ne_nil_of_mem hquery)
  unfold originRelative
  simp only [List.isEmpty_eq_false_iff.mpr hfragment, Bool.and_false]

/-- The request for one page. -/
def pageRequest (base : Str) (page : Nat) : HttpRequest :=
  c.httpRequest (str "GET") (pagePath base (page * c.pageSize) c.pageSize) none

variable {c} in
theorem request_page {controller : Controller} {base : Str} (h : IsLocalPath base) (page : Nat)
    (sent : List HttpRequest) :
    c.request controller (str "GET") (pagePath base (page * c.pageSize) c.pageSize) none sent =
      (controller (sent ++ [c.pageRequest base page]), sent ++ [c.pageRequest base page]) :=
  congrFun (if_pos ⟨(h.page _ _).originRelative, .inl ⟨rfl, rfl⟩⟩) sent

/-! ## Readings of any controller -/

section

variable {c floatRepr decode} {controller : Controller}

/-- A call of the client sends at most one request. -/
theorem request_sent (method path : Str) (payload : Option (List Byte)) (sent : List HttpRequest) :
    ∃ more, (c.request controller method path payload sent).2 = sent ++ more ∧ more.length ≤ 1 := by
  rw [request]
  split
  · exact ⟨[_], rfl, le_rfl⟩
  · exact ⟨[], (List.append_nil _).symm, Nat.zero_le _⟩

/-- Every page costs at most one request, and no page takes the items over their limit. -/
theorem pagesFrom_bounded (base : Str) (pages page : Nat) {items : List Json}
    (hitems : items.length ≤ c.maxItems) (sent : List HttpRequest) :
    ∃ more, (c.pagesFrom floatRepr decode controller base pages page items sent).2 = sent ++ more ∧
      more.length ≤ pages ∧ ∀ items',
        (c.pagesFrom floatRepr decode controller base pages page items sent).1 = .ok items' →
          items'.length ≤ c.maxItems := by
  induction pages generalizing page items sent with
  | zero =>
    refine ⟨[], (List.append_nil _).symm, le_rfl, ?_⟩
    rintro items' ⟨rfl⟩
    exact hitems
  | succ pages ih =>
    obtain ⟨first, hfirst, hone⟩ := @request_sent c controller (str "GET")
      (pagePath base (page * c.pageSize) c.pageSize) none sent
    cases hrequest : c.request controller (str "GET")
        (pagePath base (page * c.pageSize) c.pageSize) none sent with
    | mk answer sent' =>
      rw [hrequest] at hfirst
      obtain rfl : sent' = sent ++ first := hfirst
      cases answer with
      | error e =>
        rw [pagesFrom, Call.bind_error hrequest]
        exact ⟨first, rfl, hone.trans (by omega), fun _ h => nomatch h⟩
      | ok response =>
        rw [pagesFrom, Call.bind_ok hrequest]
        cases hpage : pageItems floatRepr decode response with
        | error e =>
          rw [Call.bind_error (m := Call.ofExcept (.error e)) rfl]
          exact ⟨first, rfl, hone.trans (by omega), fun _ h => nomatch h⟩
        | ok pageItems =>
          rw [Call.bind_ok (m := Call.ofExcept (.ok pageItems)) rfl]
          have hnext : (items ++ pageItems.take (c.maxItems - items.length)).length ≤
              c.maxItems := by
            rw [List.length_append, List.length_take]
            omega
          split
          · refine ⟨first, rfl, hone.trans (by omega), ?_⟩
            rintro items' ⟨rfl⟩
            exact hnext
          · obtain ⟨more, hmore, hlength, hbound⟩ := ih (page + 1) hnext (sent ++ first)
            refine ⟨first ++ more, ?_, ?_, hbound⟩
            · rw [hmore, List.append_assoc]
            · rw [List.length_append]
              omega

end

/-! ## A controller that serves a list -/

/-- The controller answers every request for a page under the path with that slice of the list. -/
def Serves (controller : Controller) (base : Str) (total : List Json) : Prop :=
  ∀ sent page, ∃ response, controller (sent ++ [c.pageRequest base page]) = .ok response ∧
    pageItems floatRepr decode response =
      .ok ((total.drop (page * c.pageSize)).take c.pageSize)

/-- The pages that are read of a list from `page` on. -/
def pageCount (pages page total : Nat) : Nat :=
  min pages (min ((c.maxItems + c.pageSize - 1) / c.pageSize - page) (total / c.pageSize + 1 - page))

variable {c floatRepr decode} {controller : Controller} {base : Str} {total : List Json}

theorem pagesFrom_serves (hbase : IsLocalPath base)
    (h : c.Serves floatRepr decode controller base total) (pages page : Nat)
    (hitems : page * c.pageSize < c.maxItems) (htotal : page * c.pageSize ≤ total.length)
    (sent : List HttpRequest) :
    c.pagesFrom floatRepr decode controller base pages page (total.take (page * c.pageSize)) sent =
      (.ok (total.take (min c.maxItems ((page + pages) * c.pageSize))),
        sent ++ (List.range' page (c.pageCount pages page total.length)).map (c.pageRequest base)) := by
  induction pages generalizing page sent with
  | zero =>
    have hcount : c.pageCount 0 page total.length = 0 := Nat.zero_min _
    rw [hcount, Nat.add_zero, Nat.min_eq_right hitems.le]
    exact congrArg (Prod.mk _) (List.append_nil _).symm
  | succ pages ih =>
    obtain ⟨hsize, -, -⟩ := c.positive
    obtain ⟨response, hanswer, hpage⟩ := h sent page
    have hrequest := @request_page c controller base hbase page sent
    rw [hanswer] at hrequest
    rw [pagesFrom, Call.bind_ok hrequest,
      hpage, Call.bind_ok (m := Call.ofExcept (.ok _)) rfl]
    have hsucc : (page + 1) * c.pageSize = page * c.pageSize + c.pageSize := Nat.succ_mul _ _
    have hheld : (total.take (page * c.pageSize)).length = page * c.pageSize := by
      rw [List.length_take]
      omega
    -- the page's slice follows on what is held
    have hnext : total.take (page * c.pageSize) ++
        ((total.drop (page * c.pageSize)).take c.pageSize).take
          (c.maxItems - (total.take (page * c.pageSize)).length) =
            total.take (min c.maxItems ((page + 1) * c.pageSize)) := by
      rw [hheld, List.take_take, ← List.take_add]
      congr 1
      omega
    have hlength : ((total.drop (page * c.pageSize)).take c.pageSize).length =
        min c.pageSize (total.length - page * c.pageSize) := by
      rw [List.length_take, List.length_drop]
    rw [hnext, hlength, List.length_take]
    have hceil : ∀ n, n < (c.maxItems + c.pageSize - 1) / c.pageSize ↔ n * c.pageSize < c.maxItems := by
      intro n
      rw [← Nat.succ_le_iff, Nat.le_div_iff_mul_le hsize, Nat.succ_mul]
      omega
    have hfloor : ∀ n, n < total.length / c.pageSize + 1 ↔ n * c.pageSize ≤ total.length := by
      intro n
      rw [Nat.lt_succ_iff, Nat.le_div_iff_mul_le hsize]
    have hceil0 := (hceil page).mpr hitems
    have hceil1 := hceil (page + 1)
    have hfloor0 := (hfloor page).mpr htotal
    have hfloor1 := hfloor (page + 1)
    have hmore : (page + 1) * c.pageSize ≤ (page + (pages + 1)) * c.pageSize :=
      Nat.mul_le_mul_right _ (by omega)
    have hrange : List.range' page 1 = [page] := rfl
    split
    · next hstop =>
      -- the limit of the items is reached, or the page is short
      have hcount : c.pageCount (pages + 1) page total.length = 1 := by
        unfold pageCount
        omega
      have htake : total.take (min c.maxItems ((page + 1) * c.pageSize)) =
          total.take (min c.maxItems ((page + (pages + 1)) * c.pageSize)) := by
        rw [List.take_eq_take_iff]
        omega
      rw [hcount, htake]
      rfl
    · next hgo =>
      have hcount : c.pageCount (pages + 1) page total.length =
          c.pageCount pages (page + 1) total.length + 1 := by
        unfold pageCount
        omega
      have hfull : min c.maxItems ((page + 1) * c.pageSize) = (page + 1) * c.pageSize := by
        omega
      rw [hcount, hfull, ih (page + 1) (by omega) (by omega), List.range'_succ, List.map_cons,
        List.append_assoc, Nat.add_right_comm page 1 pages]
      rfl

/-- The resource is on the allowlist, and its path has no fragment. -/
def Reads (resource site : Str) : Prop :=
  resource ∈ readOnlyResources ∧ (resource = str "sites" ∨ cp '#' ∉ site)

theorem exists_basePath {resource : Str} (h : resource ∈ readOnlyResources) (site : Str) :
    ∃ base, c.basePath resource site = .ok base := by
  unfold basePath
  simp only
  split
  · exact ⟨_, rfl⟩
  · next hne =>
    have hpath : ∀ r ∈ readOnlyResources, r ≠ str "sites" → (resourcePaths.get r).isSome := by
      decide
    obtain ⟨path, hpath⟩ := Option.isSome_iff_exists.mp (hpath resource h hne)
    rw [hpath]
    exact ⟨_, rfl⟩

theorem getPages_run {resource site base : Str} (hresource : resource ∈ readOnlyResources)
    (hpath : c.basePath resource site = .ok base) (sent : List HttpRequest) :
    c.getPages floatRepr decode controller resource site sent =
      c.pagesFrom floatRepr decode controller base c.maxPages 0 [] sent := by
  unfold getPages
  rw [if_neg (not_not_intro hresource), hpath]
  rfl

/-- Otherwise the client raises and sends nothing. -/
theorem getPages_refused {resource site : Str} (h : ¬ Reads resource site)
    (sent : List HttpRequest) : ∃ message,
      c.getPages floatRepr decode controller resource site sent =
        (.error (.unifi message), sent) := by
  by_cases hresource : resource ∈ readOnlyResources
  · obtain ⟨hne, hsite⟩ := not_or.mp fun hread => h ⟨hresource, hread⟩
    obtain ⟨base, hpath⟩ := @exists_basePath c resource hresource site
    have hfragment : cp '#' ∈ base := by
      unfold basePath at hpath
      simp only [if_neg hne] at hpath
      split at hpath
      · obtain rfl := Except.ok.inj hpath
        have hmem := not_not.mp hsite
        simp only [List.mem_append]
        tauto
      · cases hpath
    obtain ⟨pages, hpages⟩ := Nat.exists_eq_succ_of_ne_zero (Nat.pos_iff_ne_zero.mp c.positive.2.1)
    refine ⟨str "UniFi client refused a non-read-only operation", ?_⟩
    rw [getPages_run hresource hpath, hpages, pagesFrom]
    refine Call.bind_error (congrFun (if_neg fun hread => ?_) sent)
    rw [originRelative_of_fragment hfragment] at hread
    cases hread.1
  · exact ⟨_, congrFun (if_pos hresource) sent⟩

/-- A reading of any controller is bounded. Of a controller that serves a list it returns the first
items up to its limits, with one request for each page up to the limit that is reached first. -/
theorem getPages_exact (controller : Controller) (resource site : Str) (sent : List HttpRequest) :
    (∃ more, (c.getPages floatRepr decode controller resource site sent).2 = sent ++ more ∧
      more.length ≤ c.maxPages ∧ ∀ items,
        (c.getPages floatRepr decode controller resource site sent).1 = .ok items →
          items.length ≤ c.maxItems) ∧
      ∀ base total, Reads resource site → c.basePath resource site = .ok base →
        c.Serves floatRepr decode controller base total →
          c.getPages floatRepr decode controller resource site sent =
            (.ok (total.take (min total.length (min c.maxItems (c.maxPages * c.pageSize)))),
              sent ++ (List.range (min c.maxPages (min ((c.maxItems + c.pageSize - 1) / c.pageSize)
                (total.length / c.pageSize + 1)))).map (c.pageRequest base)) := by
  refine ⟨?_, fun base total hread hpath hserves => ?_⟩
  · by_cases hresource : resource ∈ readOnlyResources
    · obtain ⟨base, hpath⟩ := @exists_basePath c resource hresource site
      rw [getPages_run hresource hpath]
      exact pagesFrom_bounded base c.maxPages 0 (Nat.zero_le _) sent
    · obtain ⟨message, hrefused⟩ := @getPages_refused c floatRepr decode controller resource site
        (fun hread => hresource hread.1) sent
      rw [hrefused]
      exact ⟨[], (List.append_nil _).symm, Nat.zero_le _, fun _ h => nomatch h⟩
  · have hrun := pagesFrom_serves (basePath_local c hpath hread.2) hserves c.maxPages 0
      (by rw [Nat.zero_mul]; exact c.positive.2.2) (by rw [Nat.zero_mul]; exact Nat.zero_le _) sent
    rw [Nat.zero_mul, List.take_zero, Nat.zero_add] at hrun
    rw [getPages_run hread.1 hpath, hrun, List.range_eq_range']
    have htake : total.take (min total.length (min c.maxItems (c.maxPages * c.pageSize))) =
        total.take (min c.maxItems (c.maxPages * c.pageSize)) := by
      rw [List.take_eq_take_iff]
      omega
    rw [htake]
    rfl

/-! ### Five numbers, read two by two -/

def pairsClient : UniFiClient where
  endpoint := ⟨str "https://controller.test:8443", .modern, true, 15⟩
  pageSize := 2
  maxPages := 8
  maxItems := 10
  positive := by decide

/-- The text of a page; there is none behind the third. -/
def pageText : Nat → String
  | 0 => "\x7b\"data\":[7,8]\x7d"
  | 1 => "\x7b\"data\":[9,1]\x7d"
  | 2 => "\x7b\"data\":[2]\x7d"
  | _ => "\x7b\"data\":[]\x7d"

/-- The path that the client requests a page by. -/
def pairsPath (page : Nat) : Str :=
  str "proxy/network/api/self/sites?_start=" ++ (natStr (page * 2) ++ (str "&_limit=" ++ natStr 2))

/-- The controller answers a request with the page that it is for. -/
def numbersController : Controller := fun sent =>
  .ok ⟨200, (str (pageText (((List.range 3).find? fun page =>
    sent.getLast?.map HttpRequest.path = some (pairsPath page)).getD 3))).flatMap utf8Char⟩

/-- The numbers of a list that holds nothing else. -/
def numbersOf : List Json → Option (List Int)
  | [] => some []
  | .int n :: items => (numbersOf items).map (n :: ·)
  | _ :: _ => none

theorem numbersOf_eq_some {items : List Json} {numbers : List Int} (h : numbersOf items = some numbers) :
    items = numbers.map Json.int := by
  induction items generalizing numbers with
  | nil =>
    cases h
    rfl
  | cons item items ih =>
    cases item with
    | int n =>
      obtain ⟨rest, hrest, rfl⟩ := Option.map_eq_some_iff.mp h
      rw [ih hrest]
      rfl
    | _ => cases h

theorem pageItems_numbers {response : HttpResponse} {numbers : List Int}
    (h : (pageItems id (fun _ => none) response).toOption.bind numbersOf = some numbers) :
    pageItems id (fun _ => none) response = .ok (numbers.map Json.int) := by
  obtain ⟨items, hitems, hnumbers⟩ := Option.bind_eq_some_iff.mp h
  rw [← numbersOf_eq_some hnumbers]
  exact Except.toOption_eq_some.mp hitems

theorem pairsPath_inj {page page' : Nat} (h : pairsPath page = pairsPath page') : page = page' := by
  have hstart := natStr_injective (List.append_cancel_right (List.append_cancel_left h))
  omega

theorem pairsClient_path (page : Nat) :
    (pairsClient.pageRequest (str "/proxy/network/api/self/sites") page).path = pairsPath page := by
  have hpath : pagePath (str "/proxy/network/api/self/sites") (page * 2) 2 =
      str "/proxy/network/api/self/sites?_start=" ++
        (natStr (page * 2) ++ (str "&_limit=" ++ natStr 2)) := by
    simp only [pagePath, ← List.append_assoc]
    congr 3
  change List.dropWhile _ (pagePath _ (page * 2) 2) = _
  rw [hpath, List.dropWhile_append, if_neg (by decide)]
  unfold pairsPath
  congr 1

theorem numbersController_serves : pairsClient.Serves id (fun _ => none) numbersController
    (str "/proxy/network/api/self/sites") ([7, 8, 9, 1, 2].map Json.int) := by
  intro sent page
  refine ⟨_, rfl, ?_⟩
  have hfind : ((List.range 3).find? fun k => (sent ++ [pairsClient.pageRequest
      (str "/proxy/network/api/self/sites") page]).getLast?.map HttpRequest.path =
        some (pairsPath k)) = (List.range 3).find? fun k => page = k := by
    congr 1
    funext k
    rw [List.getLast?_concat, Option.map_some, pairsClient_path, decide_eq_decide,
      Option.some.injEq]
    exact ⟨pairsPath_inj, congrArg pairsPath⟩
  rw [hfind]
  rcases page with _ | _ | _ | page
  · exact @pageItems_numbers _ [7, 8] (by decide +kernel)
  · exact @pageItems_numbers _ [9, 1] (by decide +kernel)
  · exact @pageItems_numbers _ [2] (by decide +kernel)
  · have hnone : ((List.range 3).find? fun k => page + 3 = k) = none := by
      rw [List.find?_eq_none]
      intro k hk
      have := List.mem_range.mp hk
      simp only [decide_eq_true_eq]
      omega
    have hpast : ([7, 8, 9, 1, 2].map Json.int).drop ((page + 3) * pairsClient.pageSize) = [] := by
      refine List.drop_eq_nil_of_le ?_
      change 5 ≤ (page + 3) * 2
      omega
    rw [hnone, hpast, List.take_nil]
    exact @pageItems_numbers _ [] (by decide +kernel)

/-- All five numbers are read, with three requests. -/
theorem getPages_sample :
    (pairsClient.getPages id (fun _ => none) numbersController (str "sites") (str "default") []).1 =
      .ok ([7, 8, 9, 1, 2].map Json.int) ∧
    (pairsClient.getPages id (fun _ => none) numbersController (str "sites") (str "default") []).2 =
      [0, 1, 2].map (pairsClient.pageRequest (str "/proxy/network/api/self/sites")) := by
  have hrun := (getPages_exact (c := pairsClient) numbersController (str "sites") (str "default")
    []).2 (str "/proxy/network/api/self/sites") ([7, 8, 9, 1, 2].map Json.int) ⟨by decide, .inl rfl⟩
    rfl numbersController_serves
  rw [hrun]
  exact ⟨rfl, rfl⟩

end

end UniFiClient

end FieldDiscovery.Unifi
