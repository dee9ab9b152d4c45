import X402Mesh.Shared.NetGuard

set_option autoImplicit false

-- Calls overlap at the await of the resolver, literals and host names share the map, and the oldest
-- entry makes room for a new one.

namespace X402Mesh.NetGuard

theorem cut_last_colon {a b c d : List Char} (left : ':' ∉ b) (right : ':' ∉ d)
    (same : a ++ ':' :: b = c ++ ':' :: d) : a = c := by
  have cut (xs ys : List Char) (free : ':' ∉ xs) :
      (xs ++ ':' :: ys).dropWhile (· ≠ ':') = ':' :: ys := by
    induction xs with
    | nil => simp
    | cons x rest ih =>
      simp only [List.mem_cons, not_or] at free
      simpa [Ne.symm free.1] using ih free.2
  have reversed : b.reverse ++ ':' :: a.reverse = d.reverse ++ ':' :: c.reverse := by
    simpa using congrArg List.reverse same
  have rest := congrArg (List.dropWhile (· ≠ ':')) reversed
  rw [cut _ _ (by simpa using left), cut _ _ (by simpa using right)] at rest
  exact List.reverse_injective (List.cons.inj rest).2

namespace Url

theorem colon_not_in_port (url : Url) : ':' ∉ url.port.toList := by
  intro member
  exact absurd (url.port_digits ':' member) (by decide)

theorem host_toList (url : Url) (ported : url.port ≠ "") :
    url.host.toList = url.hostname.toList ++ ':' :: url.port.toList := by
  simp [host, ported]

-- A host name alone is never one with a port after it.
theorem host_ported {u v : Url} (plain : u.port = "") (ported : v.port ≠ "") : u.host ≠ v.host := by
  intro same
  have chars : u.hostname.toList = v.hostname.toList ++ ':' :: v.port.toList := by
    rw [← v.host_toList ported, ← same, host, if_pos plain]
  have closed := u.bracketed (by simp [chars])
  have nonempty : v.port.toList ≠ [] := by
    simpa using ported
  rw [chars, List.getLast?_append, List.getLast?_cons_of_ne_nil nonempty,
    List.getLast?_eq_some_getLast nonempty, Option.some_or, Option.some.injEq] at closed
  have digit := v.port_digits _ (List.getLast_mem nonempty)
  rw [closed] at digit
  exact absurd digit (by decide)

theorem hostname_of_host {u v : Url} (same : u.host = v.host) : u.hostname = v.hostname := by
  by_cases left : u.port = ""
  · by_cases right : v.port = ""
    · simpa [host, left, right] using same
    · exact absurd same (host_ported left right)
  · by_cases right : v.port = ""
    · exact absurd same.symm (host_ported right left)
    · have chars := congrArg String.toList same
      rw [u.host_toList left, v.host_toList right] at chars
      exact String.toList_injective
        (cut_last_colon u.colon_not_in_port v.colon_not_in_port chars)

end Url

structure Checked where
  hostname : String
  addresses : List String
  checkedAt : Nat
  deriving DecidableEq

inductive Route
  | literal | cached | fresh
  deriving DecidableEq

structure Accepted where
  url : Url
  route : Route
  acceptedAt : Nat

-- `waiting` are the calls at their await, and the last two are ghosts.
structure Validation where
  cache : ResolutionCache
  clock : Nat
  waiting : List Url
  checked : List Checked
  accepted : List Accepted

inductive ValidationAction
  | call (raw : String) (now : Nat)
  | resolve (index : Nat) (answer : Option (List String)) (now : Nat)
  | reset

def ValidationAction.onTime (s : Validation) : ValidationAction → Prop
  | .call _ now => s.clock ≤ now
  | .resolve _ _ now => s.clock ≤ now
  | .reset => True

namespace Validation

variable (isIP : String → Nat) (parse : String → Option Url)

def init : Validation := ⟨.empty, 0, [], [], []⟩

def routeOf (url : Url) : Route := if isIP url.bare ≠ 0 then .literal else .cached

def called (s : Validation) (now : Nat) : ResolutionCache × Guarded → Validation
  | (cache, .returned url) =>
    { s with
      cache := cache, clock := now, accepted := s.accepted ++ [⟨url, routeOf isIP url, now⟩] }
  | (cache, .threw _) => { s with cache := cache, clock := now }
  | (cache, .resolving url) => { s with cache := cache, clock := now, waiting := s.waiting ++ [url] }

def answered (s : Validation) (url : Url) (answer : Option (List String)) (now : Nat) :
    ResolutionCache × Except MeshError Url → Validation
  | (cache, result) =>
    { s with
      cache := cache
      clock := now
      checked :=
        s.checked ++ (answer.map fun addresses => ⟨url.hostname, addresses, now⟩).toList
      accepted :=
        s.accepted ++ match result with | .ok url => [⟨url, .fresh, now⟩] | .error _ => [] }

def step (s : Validation) : ValidationAction → Option Validation
  | .call raw now =>
    some (s.called isIP now (assertRoutableEndpoint isIP parse s.cache raw false now))
  | .resolve index answer now => do
    let url ← s.waiting[index]?
    return { s with waiting := s.waiting.eraseIdx index }.answered url answer now
      (resolved isIP s.cache url answer now)
  | .reset => some { s with cache := .empty }

-- An accepted answer for the name, looked at before `now` and no longer ago than an entry lives.
def Vouched (s : Validation) (hostname : String) (now : Nat) : Prop :=
  ∃ c ∈ s.checked, c.hostname = hostname ∧ c.addresses ≠ [] ∧
    (∀ address ∈ c.addresses, isBlockedAddress isIP address = false) ∧
    now < c.checkedAt + resolutionCacheTtlMs ∧ c.checkedAt ≤ now

structure Remembers (s : Validation) (host : String) (expiresAt : Nat) (a : Accepted) : Prop where
  member : a ∈ s.accepted
  host : a.url.host = host
  validated : a.route ≠ .cached
  expires : expiresAt = a.acceptedAt + resolutionCacheTtlMs

structure Sound (s : Validation) : Prop where
  bounded : s.cache.size ≤ resolutionCacheMaxEntries
  past : ∀ a ∈ s.accepted, a.acceptedAt ≤ s.clock
  remembered : ∀ host expiresAt, s.cache.get? host = some expiresAt →
    ∃ a, Remembers s host expiresAt a
  waiting : ∀ url ∈ s.waiting, isIP url.bare = 0
  literal : ∀ a ∈ s.accepted, isIP a.url.bare ≠ 0 →
    a.route = .literal ∧ isBlockedAddress isIP a.url.bare = false
  named : ∀ a ∈ s.accepted, isIP a.url.bare = 0 →
    a.route ≠ .literal ∧ Vouched isIP s a.url.hostname a.acceptedAt
  fresh : ∀ a ∈ s.accepted, a.route = .fresh → ∃ c ∈ s.checked,
    c.hostname = a.url.hostname ∧ c.addresses ≠ [] ∧
      (∀ address ∈ c.addresses, isBlockedAddress isIP address = false) ∧
      c.checkedAt = a.acceptedAt

end Validation

section calls

variable (isIP : String → Nat) (parse : String → Option Url) (cache : ResolutionCache)

theorem endpoint_cases (raw : String) (now : Nat) :
    (∃ url, assertRoutableEndpoint isIP parse cache raw false now =
        (rememberHost cache url.host now, .returned url) ∧
      isIP url.bare ≠ 0 ∧ isBlockedAddress isIP url.bare = false) ∨
    (∃ url expiresAt, assertRoutableEndpoint isIP parse cache raw false now =
        (cache, .returned url) ∧
      isIP url.bare = 0 ∧ cache.get? url.host = some expiresAt ∧ now < expiresAt) ∨
    (∃ error, assertRoutableEndpoint isIP parse cache raw false now = (cache, .threw error)) ∨
    (∃ url, assertRoutableEndpoint isIP parse cache raw false now = (cache, .resolving url) ∧
      isIP url.bare = 0) := by
  unfold assertRoutableEndpoint
  split
  next error _ => exact .inr (.inr (.inl ⟨error, rfl⟩))
  next url _ =>
    rw [if_neg Bool.false_ne_true]
    split
    next literal =>
      split
      next blocked => exact .inr (.inr (.inl ⟨_, rfl⟩))
      next open_to => exact .inl ⟨url, rfl, literal, Bool.eq_false_iff.mpr open_to⟩
    next name =>
      have name : isIP url.bare = 0 := Decidable.not_not.mp name
      split
      next expiresAt found =>
        split
        next live => exact .inr (.inl ⟨url, expiresAt, rfl, name, found, live⟩)
        next => exact .inr (.inr (.inr ⟨url, rfl, name⟩))
      next => exact .inr (.inr (.inr ⟨url, rfl, name⟩))

theorem resolved_cases (url : Url) (answer : Option (List String)) (now : Nat) :
    (∃ error, resolved isIP cache url answer now = (cache, .error error)) ∨
    ∃ addresses, answer = some addresses ∧ addresses ≠ [] ∧
      (∀ address ∈ addresses, isBlockedAddress isIP address = false) ∧
      resolved isIP cache url answer now = (rememberHost cache url.host now, .ok url) := by
  unfold resolved
  cases answer with
  | none => exact .inl ⟨_, rfl⟩
  | some addresses =>
    dsimp only
    split
    next => exact .inl ⟨_, rfl⟩
    next nonempty =>
      split
      next address _ => exact .inl ⟨_, rfl⟩
      next passed =>
        refine .inr ⟨addresses, rfl, fun empty => nonempty (by rw [empty]; rfl), ?_, rfl⟩
        intro address member
        exact Bool.eq_false_iff.mpr (List.find?_eq_none.mp passed address member)

variable {cache}

theorem rememberHost_size (bounded : cache.size ≤ resolutionCacheMaxEntries) (host : String)
    (now : Nat) : (rememberHost cache host now).size ≤ resolutionCacheMaxEntries := by
  have room : (if cache.size ≥ resolutionCacheMaxEntries then cache.drop 1 else cache).size + 1 ≤
      resolutionCacheMaxEntries := by
    split
    next full =>
      have shorter : (cache.drop 1).size = cache.size - 1 := List.length_drop
      simp only [resolutionCacheMaxEntries] at *
      omega
    next => omega
  have grown (m : ResolutionCache) (expiresAt : Nat) : (m.set host expiresAt).size ≤ m.size + 1 := by
    rw [← OrderedMap.length_keys, OrderedMap.keys_set, ← OrderedMap.length_keys]
    split <;> simp
  exact (grown _ _).trans room

theorem rememberHost_get {host other : String} {now expiresAt : Nat}
    (found : (rememberHost cache host now).get? other = some expiresAt) :
    other = host ∧ expiresAt = now + resolutionCacheTtlMs ∨ cache.get? other = some expiresAt := by
  unfold rememberHost at found
  dsimp only at found
  rw [OrderedMap.get?_set] at found
  split at found
  next own => exact .inl ⟨own, (Option.some.inj found).symm⟩
  next =>
    right
    split at found
    next => exact cache.get?_drop_some 1 other expiresAt found
    next => exact found

end calls

namespace Validation

variable {isIP : String → Nat} {parse : String → Option Url} {s : Validation}

theorem init_sound : Sound isIP init where
  bounded := Nat.zero_le _
  past := nofun
  remembered := nofun
  waiting := nofun
  literal := nofun
  named := nofun
  fresh := nofun

theorem Vouched.mono {t : Validation} {hostname : String} {now : Nat}
    (vouched : Vouched isIP s hostname now) (more : ∀ c ∈ s.checked, c ∈ t.checked) :
    Vouched isIP t hostname now := by
  obtain ⟨c, member, rest⟩ := vouched
  exact ⟨c, more c member, rest⟩

-- Time goes on, calls wait, and answers are looked at.
theorem Sound.pass (sound : Sound isIP s) {now : Nat} (later : s.clock ≤ now) {waiting : List Url}
    (names : ∀ url ∈ waiting, isIP url.bare = 0) {checked : List Checked}
    (more : ∀ c ∈ s.checked, c ∈ checked) :
    Sound isIP { s with clock := now, waiting := waiting, checked := checked } where
  bounded := sound.bounded
  past a member := (sound.past a member).trans later
  remembered host expiresAt found := by
    obtain ⟨a, remembers⟩ := sound.remembered host expiresAt found
    exact ⟨a, { remembers with }⟩
  waiting := names
  literal := sound.literal
  named a member name := by
    obtain ⟨route, vouched⟩ := sound.named a member name
    exact ⟨route, vouched.mono more⟩
  fresh a member route := by
    obtain ⟨c, known, rest⟩ := sound.fresh a member route
    exact ⟨c, more c known, rest⟩

theorem Sound.accept (sound : Sound isIP s) {a : Accepted} (now : a.acceptedAt = s.clock)
    (literal : isIP a.url.bare ≠ 0 →
      a.route = .literal ∧ isBlockedAddress isIP a.url.bare = false)
    (named : isIP a.url.bare = 0 →
      a.route ≠ .literal ∧ Vouched isIP s a.url.hostname a.acceptedAt)
    (fresh : a.route = .fresh → ∃ c ∈ s.checked,
      c.hostname = a.url.hostname ∧ c.addresses ≠ [] ∧
        (∀ address ∈ c.addresses, isBlockedAddress isIP address = false) ∧
        c.checkedAt = a.acceptedAt) :
    Sound isIP { s with accepted := s.accepted ++ [a] } where
  bounded := sound.bounded
  past b member := by
    rcases List.mem_append.mp member with old | new
    next => exact sound.past b old
    next =>
      obtain rfl := List.mem_singleton.mp new
      exact now.le
  remembered host expiresAt found := by
    obtain ⟨b, remembers⟩ := sound.remembered host expiresAt found
    exact ⟨b, { remembers with member := List.mem_append_left _ remembers.member }⟩
  waiting := sound.waiting
  literal b member := by
    rcases List.mem_append.mp member with old | new
    next => exact sound.literal b old
    next =>
      obtain rfl := List.mem_singleton.mp new
      exact literal
  named b member := by
    rcases List.mem_append.mp member with old | new
    next => exact sound.named b old
    next =>
      obtain rfl := List.mem_singleton.mp new
      exact named
  fresh b member := by
    rcases List.mem_append.mp member with old | new
    next => exact sound.fresh b old
    next =>
      obtain rfl := List.mem_singleton.mp new
      exact fresh

theorem Sound.remember (sound : Sound isIP s) {a : Accepted} (member : a ∈ s.accepted)
    (validated : a.route ≠ .cached) :
    Sound isIP { s with cache := rememberHost s.cache a.url.host a.acceptedAt } where
  bounded := rememberHost_size sound.bounded _ _
  past := sound.past
  remembered host expiresAt found := by
    rcases rememberHost_get found with ⟨rfl, expires⟩ | old
    next => exact ⟨a, member, rfl, validated, expires⟩
    next =>
      obtain ⟨b, remembers⟩ := sound.remembered host expiresAt old
      exact ⟨b, { remembers with }⟩
  waiting := sound.waiting
  literal := sound.literal
  named := sound.named
  fresh := sound.fresh

-- A live entry was made by a call for the same name, which looked at a fresh answer.
theorem Sound.vouches (sound : Sound isIP s) {url : Url} (name : isIP url.bare = 0) {expiresAt now : Nat}
    (found : s.cache.get? url.host = some expiresAt) (live : now < expiresAt)
    (later : s.clock ≤ now) : Vouched isIP s url.hostname now := by
  obtain ⟨a, remembers⟩ := sound.remembered url.host expiresAt found
  have same := Url.hostname_of_host remembers.host
  have alike : isIP a.url.bare = 0 := by
    rw [Url.bare, same]
    exact name
  have fresh : a.route = .fresh := by
    have not_literal := (sound.named a remembers.member alike).1
    have not_cached := remembers.validated
    cases route : a.route <;> simp_all
  obtain ⟨c, known, hostname, nonempty, public_only, at_once⟩ :=
    sound.fresh a remembers.member fresh
  have before := sound.past a remembers.member
  have expires := remembers.expires
  exact ⟨c, known, hostname.trans same, nonempty, public_only, by omega, by omega⟩

theorem Sound.step (sound : Sound isIP s) {s' : Validation} {action : ValidationAction}
    (onTime : action.onTime s) (taken : s.step isIP parse action = some s') : Sound isIP s' := by
  cases action with
  | call raw now =>
    cases taken
    have passed : Sound isIP { s with clock := now } :=
      sound.pass onTime sound.waiting fun _ known => known
    rcases endpoint_cases isIP parse s.cache raw now with
      ⟨url, ended, literal, passes⟩ | ⟨url, expiresAt, ended, name, found, live⟩ | ⟨error, ended⟩ |
      ⟨url, ended, name⟩
    next =>
      rw [ended]
      have accepted := passed.accept (a := ⟨url, routeOf isIP url, now⟩) rfl
        (fun _ => ⟨if_pos literal, passes⟩) (fun name => absurd name literal)
        (fun fresh => by simp [routeOf, literal] at fresh)
      exact accepted.remember (List.mem_append_right _ (List.mem_singleton_self _))
        (by simp [routeOf, literal])
    next =>
      rw [ended]
      have cached : routeOf isIP url = .cached := if_neg fun literal => literal name
      exact passed.accept (a := ⟨url, routeOf isIP url, now⟩) rfl
        (fun literal => absurd name literal)
        (fun _ => ⟨by simp [cached], sound.vouches name found live onTime⟩)
        (fun fresh => by simp [cached] at fresh)
    next =>
      rw [ended]
      exact passed
    next =>
      rw [ended]
      apply sound.pass onTime _ fun _ known => known
      intro other member
      rcases List.mem_append.mp member with old | new
      next => exact sound.waiting other old
      next =>
        obtain rfl := List.mem_singleton.mp new
        exact name
  | resolve index answer now =>
    simp only [Validation.step, Option.bind_eq_bind, Option.bind_eq_some_iff, Option.pure_def,
      Option.some.injEq] at taken
    obtain ⟨url, waits, rfl⟩ := taken
    have name := sound.waiting url (List.mem_of_getElem? waits)
    have names : ∀ other ∈ s.waiting.eraseIdx index, isIP other.bare = 0 := fun other member =>
      sound.waiting other (List.mem_of_mem_eraseIdx member)
    rcases resolved_cases isIP s.cache url answer now with
      ⟨error, ended⟩ | ⟨addresses, rfl, nonempty, passes, ended⟩
    next =>
      rw [ended, answered, List.append_nil]
      exact sound.pass onTime names fun c known => List.mem_append_left _ known
    next =>
      rw [ended]
      have looked : Sound isIP
          { s with
            clock := now
            waiting := s.waiting.eraseIdx index
            checked := s.checked ++ [⟨url.hostname, addresses, now⟩] } :=
        sound.pass onTime names fun c known => List.mem_append_left _ known
      have own : (⟨url.hostname, addresses, now⟩ : Checked) ∈
          s.checked ++ [⟨url.hostname, addresses, now⟩] :=
        List.mem_append_right _ (List.mem_singleton_self _)
      have vouched : Vouched isIP
          { s with
            clock := now
            waiting := s.waiting.eraseIdx index
            checked := s.checked ++ [⟨url.hostname, addresses, now⟩] } url.hostname now :=
        ⟨_, own, rfl, nonempty, passes, Nat.lt_add_of_pos_right (by decide), le_refl now⟩
      have accepted := looked.accept (a := ⟨url, .fresh, now⟩) rfl
        (fun literal => absurd name literal) (fun _ => ⟨by simp, vouched⟩)
        (fun _ => ⟨_, own, rfl, nonempty, passes, rfl⟩)
      exact accepted.remember (List.mem_append_right _ (List.mem_singleton_self _)) (by simp)
  | reset =>
    cases taken
    exact { sound with
      bounded := Nat.zero_le _
      remembered := nofun }

theorem literal_verdict {raw : String} {url : Url} (shape : assertHttpUrlShape parse raw = .ok url)
    (literal : isIP url.bare ≠ 0) (cache : ResolutionCache) (now : Nat) :
    (assertRoutableEndpoint isIP parse cache raw false now).2 =
      if isBlockedAddress isIP url.bare then .threw (nonPublic url url.bare) else .returned url := by
  simp only [assertRoutableEndpoint, shape, Bool.false_eq_true, if_false, if_pos literal]
  split <;> rfl

theorem threw_unremembered {cache cache' : ResolutionCache} {raw : String} {now : Nat}
    {error : MeshError}
    (threw : assertRoutableEndpoint isIP parse cache raw false now = (cache', .threw error)) :
    cache' = cache := by
  rcases endpoint_cases isIP parse cache raw now with
    ⟨url, ended, -⟩ | ⟨url, expiresAt, ended, -⟩ | ⟨_, ended⟩ | ⟨url, ended, -⟩
  next => simp [ended] at threw
  next => simp [ended] at threw
  next => exact (congrArg Prod.fst (ended.symm.trans threw)).symm
  next => simp [ended] at threw

theorem error_unremembered {cache cache' : ResolutionCache} {url : Url}
    {answer : Option (List String)} {now : Nat} {error : MeshError}
    (failed : resolved isIP cache url answer now = (cache', .error error)) : cache' = cache := by
  rcases resolved_cases isIP cache url answer now with ⟨_, ended⟩ | ⟨addresses, -, -, -, ended⟩
  next => exact (congrArg Prod.fst (ended.symm.trans failed)).symm
  next => simp [ended] at failed

/-- A name is accepted on an answer that was looked at less than the cache's lifetime ago, a literal
on itself alone, and a failed validation leaves nothing in the cache, which stays bounded. -/
theorem accepted_endpoints (run : Transition.Run (step isIP parse) (fun s a => a.onTime s) init s) :
    (∀ a ∈ s.accepted, isIP a.url.bare = 0 → Vouched isIP s a.url.hostname a.acceptedAt) ∧
    (∀ a ∈ s.accepted, isIP a.url.bare ≠ 0 → isBlockedAddress isIP a.url.bare = false) ∧
    (∀ raw url, assertHttpUrlShape parse raw = .ok url → isIP url.bare ≠ 0 → ∀ cache now,
      (assertRoutableEndpoint isIP parse cache raw false now).2 =
        if isBlockedAddress isIP url.bare then .threw (nonPublic url url.bare)
        else .returned url) ∧
    (∀ raw now cache error,
      assertRoutableEndpoint isIP parse s.cache raw false now = (cache, .threw error) →
        cache = s.cache) ∧
    (∀ url answer now cache error,
      resolved isIP s.cache url answer now = (cache, .error error) → cache = s.cache) ∧
    (∀ host expiresAt, s.cache.get? host = some expiresAt →
      ∃ a, Remembers s host expiresAt a) ∧
    s.cache.size ≤ resolutionCacheMaxEntries := by
  have sound : Sound isIP s :=
    run.invariant init_sound fun _ _ _ held onTime taken => held.step onTime taken
  refine ⟨?_, ?_, ?_, ?_, ?_, sound.remembered, sound.bounded⟩
  · exact fun a member name => (sound.named a member name).2
  · exact fun a member literal => (sound.literal a member literal).2
  · exact fun raw url shape literal => literal_verdict shape literal
  · exact fun raw now cache error threw => threw_unremembered threw
  · exact fun url answer now cache error failed => error_unremembered failed

theorem demo_bracketed :
    ':' ∈ "node.example".toList → "node.example".toList.getLast? = some ']' := by
  decide

theorem demo_port : ∀ c ∈ "8443".toList, c.isDigit = true :=
  List.all_eq_true.mp (by decide)

def demoUrl : Url :=
  ⟨"https:", "", "", "node.example", "8443", demo_bracketed, demo_port⟩

def demoParse (raw : String) : Option Url :=
  if raw = "https://node.example:8443" then some demoUrl else none

def demoIsIP (text : String) : Nat := if text = "93.184.216.34" then 4 else 0

-- The second call finds the first one's entry, a millisecond before it lapses.
theorem accepted_endpoints_cached : ∃ s : Validation,
    s.accepted.map (fun a => (a.url.host, a.route, a.acceptedAt)) =
        [("node.example:8443", .fresh, 5), ("node.example:8443", .cached, 30004)] ∧
      Vouched demoIsIP s "node.example" 30004 := by
  have run : Transition.Run (step demoIsIP demoParse) (fun s a => a.onTime s) init _ :=
    ((Transition.Run.refl.tail
      (a := .call "https://node.example:8443" 0) (by exact Nat.zero_le 0) rfl).tail
      (a := .resolve 0 (some ["93.184.216.34"]) 5) (by exact Nat.zero_le 5) rfl).tail
      (a := .call "https://node.example:8443" 30004) (by exact Nat.le_add_left 5 29999) rfl
  have accepted := (accepted_endpoints run).1
  refine ⟨_, ?rows, accepted ⟨demoUrl, .cached, 30004⟩ ?member ?name⟩
  case rows => decide
  case member => exact List.mem_append_right _ (List.mem_singleton_self _)
  case name => decide

end Validation

end X402Mesh.NetGuard
