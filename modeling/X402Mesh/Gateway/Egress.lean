import X402Mesh.Shared.NetGuard

set_option autoImplicit false

namespace X402Mesh.Gateway

open NetGuard

structure UpstreamResponse where
  status : Nat
  location : Option String
  deriving DecidableEq, Repr

inductive RedirectMode
  | follow | error | manual
  deriving DecidableEq, Repr

def redirectStatuses : List Nat := [301, 302, 303, 307, 308]

def maxRedirects : Nat := 20

namespace Fetch

-- `new URL` with a base, and the ports that `fetch` does not connect to.
variable (join : String → Url → Option Url) (badPort : Url → Bool)

/-- Where a response sends the request on. A location that is no HTTP URL, or has credentials in it,
is a network error. -/
def redirectTarget (current : Url) (response : UpstreamResponse) : Option Url :=
  if response.status ∈ redirectStatuses then
    match response.location with
    | none => none
    | some location =>
      (join location current).filter fun url =>
        (url.protocol = "http:" || url.protocol = "https:") &&
          (url.username = "" && url.password = "")
  else none

-- The URLs requested, `left` redirects before the limit. The node answers each with the next response.
def requested (redirect : RedirectMode) : Nat → Url → List UpstreamResponse → List Url
  | _, url, [] => if badPort url then [] else [url]
  | left, url, response :: rest =>
    if badPort url then []
    else if redirect = .follow ∧ 0 < left then
      match redirectTarget join url response with
      | some next => url :: requested redirect (left - 1) next rest
      | none => [url]
    else [url]

def fetch (redirect : Option RedirectMode) (url : Url) (responses : List UpstreamResponse) :
    List Url :=
  if url.username ≠ "" ∨ url.password ≠ "" then []
  else requested join badPort (redirect.getD .follow) maxRedirects url responses

end Fetch

def stripTrailingSlash (url : String) : String :=
  if url.toList.getLast? = some '/' then String.ofList (url.toList.reverse.dropWhile (· = '/')).reverse
  else url

def nodeChatPath : String := "/v1/chat/completions"

/-- What the resolver answers to the check, and when the two parts of the check run. -/
structure Lookup where
  startedAt : Nat
  answer : Option (List String)
  answeredAt : Nat

structure Egress where
  validated : List Url
  contacted : List Url

section call

variable (isIP : String → Nat) (parse : String → Option Url)
variable (join : String → Url → Option Url) (badPort : Url → Bool)

def validate (cache : ResolutionCache) (endpoint : String) (allowPrivate : Bool) (lookup : Lookup) :
    Option Url :=
  match assertRoutableEndpoint isIP parse cache endpoint allowPrivate lookup.startedAt with
  | (_, .returned url) => some url
  | (_, .threw _) => none
  | (cache, .resolving url) => (resolved isIP cache url lookup.answer lookup.answeredAt).2.toOption

def performCall (cache : ResolutionCache) (endpoint : String) (aborted allowPrivate : Bool)
    (lookup : Lookup) (responses : List UpstreamResponse) : Egress :=
  if aborted then ⟨[], []⟩
  else
    match validate isIP parse cache endpoint allowPrivate lookup with
    | none => ⟨[], []⟩
    | some accepted =>
      match parse (stripTrailingSlash endpoint ++ nodeChatPath) with
      | none => ⟨[accepted], []⟩
      | some url => ⟨[accepted], Fetch.fetch join badPort none url responses⟩

def Egress.guarded (egress : Egress) : Prop :=
  ∀ url ∈ egress.contacted, ∃ accepted ∈ egress.validated, accepted.hostname = url.hostname

end call

namespace Fetch

variable (join : String → Url → Option Url) (badPort : Url → Bool)

-- No response, while redirects are followed, sends the request to another host.
def staysOn (hostname : String) : Nat → Url → List UpstreamResponse → Prop
  | _, _, [] => True
  | left, url, response :: rest =>
    match redirectTarget join url response with
    | some next =>
      0 < left → badPort next = false →
        next.hostname = hostname ∧ staysOn hostname (left - 1) next rest
    | none => True

variable {join badPort}

theorem requested_host (hostname : String) (left : Nat) (url : Url)
    (responses : List UpstreamResponse) :
    (∀ contacted ∈ requested join badPort .follow left url responses,
      contacted.hostname = hostname) ↔
    (badPort url = false →
      url.hostname = hostname ∧ staysOn join badPort hostname left url responses) := by
  induction responses generalizing left url with
  | nil =>
    cases bad : badPort url with
    | true => simp [requested, bad]
    | false => simp [requested, staysOn, bad]
  | cons response rest ih =>
    cases bad : badPort url with
    | true => simp [requested, bad]
    | false =>
      rcases Nat.eq_zero_or_pos left with rfl | some_left
      · cases target : redirectTarget join url response <;>
          simp [requested, staysOn, bad, target]
      · cases target : redirectTarget join url response with
        | none => simp [requested, staysOn, bad, target, some_left]
        | some next =>
          have later := ih (left - 1) next
          simp only [requested, staysOn, bad, target, some_left, Bool.false_eq_true, if_false,
            and_self, if_true, List.forall_mem_cons, later, true_imp_iff]

end Fetch

section call

variable {isIP : String → Nat} {parse : String → Option Url}

theorem assertHttpUrlShape_parse {raw : String} {url : Url}
    (shape : assertHttpUrlShape parse raw = .ok url) : parse raw = some url := by
  unfold assertHttpUrlShape at shape
  split at shape
  next => cases shape
  next found =>
    split at shape
    next => cases shape
    next =>
      split at shape
      next => cases shape
      next =>
        cases shape
        exact found

-- The URL that comes back is the one that was read.
theorem validate_parse {cache : ResolutionCache} {endpoint : String} {allowPrivate : Bool}
    {lookup : Lookup} {url : Url}
    (accepted : validate isIP parse cache endpoint allowPrivate lookup = some url) :
    parse endpoint = some url := by
  have resolves (cache : ResolutionCache) (other : Url) :
      (resolved isIP cache other lookup.answer lookup.answeredAt).2.toOption = some url →
        other = url := by
    intro ended
    unfold resolved at ended
    split at ended
    next => cases ended
    next =>
      split at ended
      next => cases ended
      next =>
        split at ended
        next => cases ended
        next =>
          cases ended
          rfl
  unfold validate assertRoutableEndpoint at accepted
  cases shape : assertHttpUrlShape parse endpoint with
  | error error => simp [shape] at accepted
  | ok other =>
    rw [assertHttpUrlShape_parse shape]
    simp only [shape] at accepted
    congr 1
    by_cases own : allowPrivate = true
    · simpa [own] using accepted
    · by_cases literal : isIP other.bare ≠ 0
      · by_cases blocked : isBlockedAddress isIP other.bare = true
        · simp [own, literal, blocked] at accepted
        · simpa [own, literal, blocked] using accepted
      · cases found : cache.get? other.host with
        | none =>
          simp only [if_neg own, if_neg literal, found] at accepted
          exact resolves _ _ accepted
        | some expiresAt =>
          by_cases live : expiresAt > lookup.startedAt
          · simpa [own, literal, found, live] using accepted
          · simp only [if_neg own, if_neg literal, found, if_neg live] at accepted
            exact resolves _ _ accepted

theorem guarded_iff {join : String → Url → Option Url} {badPort : Url → Bool}
    (kept : ∀ raw url target, parse raw = some url →
      parse (stripTrailingSlash raw ++ nodeChatPath) = some target →
        target.hostname = url.hostname)
    (cache : ResolutionCache) (endpoint : String) (aborted allowPrivate : Bool) (lookup : Lookup)
    (responses : List UpstreamResponse) :
    (performCall isIP parse join badPort cache endpoint aborted allowPrivate lookup
      responses).guarded ↔
    ∀ accepted target, aborted = false →
      validate isIP parse cache endpoint allowPrivate lookup = some accepted →
      parse (stripTrailingSlash endpoint ++ nodeChatPath) = some target →
      target.username = "" ∧ target.password = "" → badPort target = false →
        Fetch.staysOn join badPort target.hostname maxRedirects target responses := by
  unfold performCall
  cases aborted with
  | true => simp [Egress.guarded]
  | false =>
    cases validated : validate isIP parse cache endpoint allowPrivate lookup with
    | none => simp [Egress.guarded]
    | some accepted =>
      cases read : parse (stripTrailingSlash endpoint ++ nodeChatPath) with
      | none => simp [Egress.guarded]
      | some target =>
        have same := kept endpoint accepted target (validate_parse validated) read
        have only (contacted : List Url) :
            (Egress.guarded ⟨[accepted], contacted⟩) ↔
              ∀ url ∈ contacted, url.hostname = target.hostname := by
          simp [Egress.guarded, same, eq_comm]
        simp only [Bool.false_eq_true, if_false, only, Fetch.fetch, Option.getD_none]
        by_cases credentials : target.username ≠ "" ∨ target.password ≠ ""
        · have unfetched : ¬ (target.username = "" ∧ target.password = "") := by
            simpa [imp_iff_not_or] using credentials
          rw [if_pos credentials]
          constructor
          · rintro - _ _ - - ⟨rfl⟩ free -
            exact absurd free unfetched
          · exact fun _ => nofun
        · have plain : target.username = "" ∧ target.password = "" := by
            simpa [not_or] using credentials
          rw [if_neg credentials, Fetch.requested_host]
          constructor
          · rintro stays _ _ - ⟨rfl⟩ ⟨rfl⟩ - sendable
            exact (stays sendable).2
          · intro stays sendable
            exact ⟨rfl, stays accepted target trivial rfl rfl plain sendable⟩

def nodeUrl : Url := ⟨"https:", "", "", "node.example", "", by decide, List.all_eq_true.mp (by decide)⟩

def metadataUrl : Url :=
  ⟨"http:", "", "", "169.254.169.254", "", by decide, List.all_eq_true.mp (by decide)⟩

def demoParse (raw : String) : Option Url :=
  if raw = "https://node.example" then some nodeUrl
  else if raw = "https://node.example/v1/chat/completions" then some nodeUrl
  else none

def demoJoin (location : String) (base : Url) : Option Url :=
  if location = "http://169.254.169.254/latest/meta-data" then some metadataUrl
  else if location = "/v2/chat/completions" then some base
  else none

def demoIsIP (text : String) : Nat :=
  if text = "93.184.216.34" ∨ text = "169.254.169.254" then 4 else 0

def publicLookup : Lookup := ⟨0, some ["93.184.216.34"], 5⟩

theorem demoParse_kept (raw : String) (url target : Url) (read : demoParse raw = some url)
    (appended : demoParse (stripTrailingSlash raw ++ nodeChatPath) = some target) :
    target.hostname = url.hostname := by
  have named (text : String) (url : Url) (read : demoParse text = some url) :
      url.hostname = "node.example" := by
    unfold demoParse at read
    split at read
    next =>
      cases read
      rfl
    next =>
      split at read
      next =>
        cases read
        rfl
      next => cases read
  rw [named _ _ read, named _ _ appended]

theorem guarded_iff_moved : (performCall demoIsIP demoParse demoJoin (fun _ => false) .empty
    "https://node.example" false false publicLookup
    [⟨308, some "/v2/chat/completions"⟩, ⟨200, none⟩]).guarded := by
  apply (guarded_iff demoParse_kept _ _ _ _ _ _).mpr
  intro accepted target _ _ read _ _
  have same : target = nodeUrl := by
    have found : demoParse (stripTrailingSlash "https://node.example" ++ nodeChatPath) =
        some nodeUrl := by
      decide
    exact Option.some.inj (read.symm.trans found)
  subst same
  have moved : Fetch.redirectTarget demoJoin nodeUrl ⟨308, some "/v2/chat/completions"⟩ =
      some nodeUrl := by
    decide
  have served : Fetch.redirectTarget demoJoin nodeUrl ⟨200, none⟩ = none := by
    decide
  simp [Fetch.staysOn, moved, served]

theorem redirect_unguarded : ¬ (performCall demoIsIP demoParse demoJoin (fun _ => false) .empty
    "https://node.example" false false publicLookup
    [⟨307, some "http://169.254.169.254/latest/meta-data"⟩, ⟨200, none⟩]).guarded := by
  have contacted : (performCall demoIsIP demoParse demoJoin (fun _ => false) .empty
      "https://node.example" false false publicLookup
      [⟨307, some "http://169.254.169.254/latest/meta-data"⟩, ⟨200, none⟩]).contacted =
        [nodeUrl, metadataUrl] := by
    decide
  have validated : (performCall demoIsIP demoParse demoJoin (fun _ => false) .empty
      "https://node.example" false false publicLookup
      [⟨307, some "http://169.254.169.254/latest/meta-data"⟩, ⟨200, none⟩]).validated =
        [nodeUrl] := by
    decide
  intro guarded
  obtain ⟨accepted, member, same⟩ := guarded metadataUrl (by simp [contacted])
  rw [validated, List.mem_singleton] at member
  subst member
  exact absurd same (by decide)

end call

end X402Mesh.Gateway
