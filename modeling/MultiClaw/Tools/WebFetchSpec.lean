import MultiClaw.Tools.WebFetch

/-! Where web_fetch connects to. -/
namespace MultiClaw.WebFetch

open Base

variable {world : World} {host : Host} {policy : NetworkPolicy} {url checked : Url}
  {target : Target} {net after : Net} {parsed : SplitUrl}

/-- No address of the answer is blocked. -/
def PublicAnswer (policy : NetworkPolicy) (infos : List (Option Address)) : Prop :=
  ∀ address, some address ∈ infos → policy.isBlockedAddress address = false

/-- The resolver has given an answer for the target in which nothing is blocked. -/
def Checked (world : World) (policy : NetworkPolicy) (target : Target) (net : Net) : Prop :=
  ∃ n < net.queries, ∃ infos, world.getaddrinfo n target = some infos ∧ PublicAnswer policy infos

/-- After an answer without blocked addresses the resolver gives no other one. -/
def Stable (world : World) (policy : NetworkPolicy) : Prop :=
  ∀ n m target infos later, n < m → world.getaddrinfo n target = some infos →
    PublicAnswer policy infos → world.getaddrinfo m target = some later →
    PublicAnswer policy later

/-- The clients connect to the host and the port that the policy has read. -/
def Agrees (world : World) (host : Host) : Prop :=
  ∀ url parsed target, readUrl world host url = .ok (parsed, target) →
    world.clientTarget (world.urlunsplit parsed) = target ∧ world.clientTarget url = target

/-- What the browser requests without asking leads to no blocked address. -/
def UnroutedPublic (world : World) (policy : NetworkPolicy) : Prop :=
  ∀ n url, ∀ request ∈ world.browserRequests n url, ∀ unrouted ∈ request.unrouted,
    ∀ m infos, world.getaddrinfo m (world.clientTarget unrouted) = some infos →
      PublicAnswer policy infos

def PublicLog (policy : NetworkPolicy) (net : Net) : Prop :=
  ∀ connection ∈ net.log, policy.isBlockedAddress connection.address = false

/-- Queries are made, and connections to addresses that are not blocked. -/
def Clean (policy : NetworkPolicy) (net after : Net) : Prop :=
  net.queries ≤ after.queries ∧ (PublicLog policy net → PublicLog policy after)

instance : Std.Refl (Clean policy) := ⟨fun _ => ⟨le_refl _, id⟩⟩

instance : IsTrans Net (Clean policy) :=
  ⟨fun _ _ _ h h' => ⟨h.1.trans h'.1, fun hlog => h'.2 (h.2 hlog)⟩⟩

/-! Steps -/

theorem exec_resolve (target : Target) (net : Net) : exec (resolve world target) net =
    (.ok (world.getaddrinfo net.queries target), { net with queries := net.queries + 1 }) := rfl

theorem clean_resolve (target : Target) : Moves (Clean policy) (resolve world target) :=
  fun _ => ⟨Nat.le_succ _, id⟩

theorem exec_connect (url : Url) (net : Net) : exec (connect world url) net =
    (.ok (), { net with
      queries := net.queries + 1
      log := net.log ++
        (((world.getaddrinfo net.queries (world.clientTarget url)).getD []).filterMap id).map
          (⟨world.clientTarget url, ·⟩) }) := rfl

/-- A connection is to an address of the answer that the client got. -/
theorem clean_connect_of_answer (hanswer : ∀ infos,
      world.getaddrinfo net.queries (world.clientTarget url) = some infos →
      PublicAnswer policy infos) : Clean policy net (exec (connect world url) net).2 := by
  rw [exec_connect]
  refine ⟨Nat.le_succ _, fun hlog connection hconnection => ?_⟩
  rcases List.mem_append.mp hconnection with hold | hnew
  · exact hlog connection hold
  · obtain ⟨address, haddress, rfl⟩ := List.mem_map.mp hnew
    cases hinfos : world.getaddrinfo net.queries (world.clientTarget url) with
    | none =>
      rw [hinfos] at haddress
      exact absurd haddress List.not_mem_nil
    | some infos =>
      rw [hinfos] at haddress
      obtain ⟨info, hinfo, rfl⟩ := List.mem_filterMap.mp haddress
      exact hanswer infos hinfos address hinfo

theorem clean_connect (hstable : Stable world policy) (url : Url) :
    MovesFrom (Checked world policy (world.clientTarget url)) (Clean policy)
      (connect world url) := by
  rintro net ⟨n, hn, infos, hinfos, hpublic⟩
  exact clean_connect_of_answer fun later hlater =>
    hstable n net.queries _ infos later hn hinfos hpublic hlater

/-! The policy -/

theorem checkAnswer_eq_ok (hprivate : policy.allowPrivateNetworks = false) {hostname : List Char}
    {answer : Option (List (Option Address))} (h : checkAnswer policy hostname answer = .ok ()) :
    ∃ infos, answer = some infos ∧ PublicAnswer policy infos := by
  rw [checkAnswer.eq_def] at h
  split at h
  · cases h
  next infos =>
    refine ⟨infos, rfl, fun address haddress => ?_⟩
    split_ifs at h with hempty hallowed hblocked
    · rw [hprivate] at hallowed
      cases hallowed
    · simp only [List.any_eq_true, List.mem_filterMap, id_eq, exists_eq_right, not_exists,
        not_and, Bool.not_eq_true] at hblocked
      exact hblocked address haddress

theorem clean_validateUrl (url : Url) : Moves (Clean policy) (validateUrl world host policy url) :=
  .bind (.ofResult _) fun _ => .bind (clean_resolve _) fun _ => .bind (.ofResult _) fun _ => .pure _

/-- What the policy lets pass has been checked. -/
theorem checked_of_validateUrl (hprivate : policy.allowPrivateNetworks = false)
    (hagrees : Agrees world host)
    (h : exec (validateUrl world host policy url) net = (.ok checked, after)) :
    Checked world policy (world.clientTarget checked) after ∧
      Checked world policy (world.clientTarget url) after := by
  obtain ⟨⟨parsed, target⟩, u, hread, h⟩ := exec_bind_eq_ok.mp h
  obtain ⟨hparsed, rfl⟩ := exec_ofResult_eq_ok.mp hread
  obtain ⟨answer, v, hresolve, h⟩ := exec_bind_eq_ok.mp h
  obtain ⟨_, w, hcheck, h⟩ := exec_bind_eq_ok.mp h
  obtain ⟨hanswer, rfl⟩ := exec_ofResult_eq_ok.mp hcheck
  cases h
  rw [exec_resolve] at hresolve
  cases hresolve
  obtain ⟨infos, hinfos, hpublic⟩ := checkAnswer_eq_ok hprivate hanswer
  obtain ⟨hclient, hbrowser⟩ := hagrees url parsed target hparsed
  rw [hclient, hbrowser]
  exact ⟨⟨net.queries, Nat.lt_succ_self _, infos, hinfos, hpublic⟩,
    net.queries, Nat.lt_succ_self _, infos, hinfos, hpublic⟩

theorem clean_passesPolicy (url : Url) :
    Moves (Clean policy) (passesPolicy world host policy url) :=
  .tryCatch (.bind (clean_validateUrl _) fun _ => .pure _) fun _ => .pure _

theorem checked_of_passesPolicy (hprivate : policy.allowPrivateNetworks = false)
    (hagrees : Agrees world host)
    (h : exec (passesPolicy world host policy url) net = (.ok true, after)) :
    Checked world policy (world.clientTarget url) after := by
  rw [passesPolicy, exec_tryCatch, exec_bind] at h
  rcases hresult : exec (validateUrl world host policy url) net with ⟨e | checked, t⟩ <;>
    rw [hresult] at h <;> cases h
  exact (checked_of_validateUrl hprivate hagrees hresult).2

/-! The modes -/

section Modes

variable (hprivate : policy.allowPrivateNetworks = false) (hagrees : Agrees world host)
  (hstable : Stable world policy) (hunrouted : UnroutedPublic world policy)

theorem clean_clientGet (hstable : Stable world policy) (url : Url) :
    MovesFrom (Checked world policy (world.clientTarget url)) (Clean policy)
      (clientGet world url) := by
  refine .bind (clean_connect hstable url) (fun _ _ _ _ _ => trivial) fun _ => .of_moves ?_
  refine .bind (fun _ => refl_of _ _) fun net => ?_
  split
  · exact .pure _
  · exact .throw _

include hprivate hagrees hstable

theorem clean_followRedirects (left : Nat) (url : Url) :
    MovesFrom (Checked world policy (world.clientTarget url)) (Clean policy)
      (followRedirects world host policy left url) := by
  induction left generalizing url with
  | zero =>
    refine .bind (clean_clientGet hstable url) (fun _ _ _ _ _ => trivial) fun response =>
      .of_moves ?_
    split
    · exact .pure _
    · exact .throw _
  | succ left ih =>
    refine .bind (clean_clientGet hstable url) (fun _ _ _ _ _ => trivial) fun response => ?_
    split
    · exact .of_moves (.pure _)
    · exact .bind (.of_moves (clean_validateUrl _))
        (fun _ _ _ _ hrun => (checked_of_validateUrl hprivate hagrees hrun).1) fun next => ih next

theorem clean_requestWithRedirects (url : Url) :
    Moves (Clean policy) (requestWithRedirects world host policy url) :=
  MovesFrom.after_moves (clean_validateUrl url)
    (fun _ _ _ hrun => (checked_of_validateUrl hprivate hagrees hrun).1)
    fun current => clean_followRedirects hprivate hagrees hstable 5 current

theorem clean_httpFetch (mode : FetchMode) (name : String) (url : Url) :
    Moves (Clean policy) (httpFetch world host policy mode name url) := by
  rw [httpFetch]
  split
  · exact .pure _
  · refine .tryCatch (.bind (clean_requestWithRedirects hprivate hagrees hstable url)
      fun _ => .pure _) fun e => ?_
    cases e with
    | policy e => exact .throw _
    | other e => exact .pure _

include hunrouted

theorem clean_routeGuard (n : Nat) (url : Url) (request : BrowserRequest)
    (hrequest : request ∈ world.browserRequests n url) :
    Moves (Clean policy) (routeGuard world host policy request) := by
  have hcontinue : MovesFrom (Checked world policy (world.clientTarget request.url)) (Clean policy)
      (continueRoute world request) := by
    refine .bind (clean_connect hstable request.url) (fun _ _ _ _ _ => trivial) fun _ =>
      .of_moves ?_
    refine .bind (.forM fun unrouted hmem net => ?_) fun _ => .pure _
    exact clean_connect_of_answer fun infos =>
      hunrouted n url request hrequest unrouted hmem _ infos
  have hpasses (net : Net) (passes : Bool) (after : Net)
      (hrun : exec (passesPolicy world host policy request.url) net = (.ok passes, after)) :
      passes = true → Checked world policy (world.clientTarget request.url) after := by
    rintro rfl
    exact checked_of_passesPolicy hprivate hagrees hrun
  refine MovesFrom.after_moves (clean_passesPolicy request.url) hpasses fun passes => ?_
  cases passes with
  | false => exact .of_moves (.pure _)
  | true => exact fun net hnet => hcontinue net (hnet rfl)

theorem clean_browserFetch (url : Url) :
    Moves (Clean policy) (browserFetch world host policy url) := by
  refine .bind (clean_validateUrl url) fun checked => ?_
  split
  · exact .pure _
  · refine .bind (fun _ => refl_of _ _) fun net => .bind (.mapM fun request hrequest =>
      clean_routeGuard hprivate hagrees hstable hunrouted _ _ request hrequest) fun passed => ?_
    split
    · exact .pure _
    · exact .pure _

theorem clean_autoHttpFetch (url : Url) :
    Moves (Clean policy) (autoHttpFetch world host policy url) := by
  have hbrowser := clean_browserFetch hprivate hagrees hstable hunrouted url
  refine .bind (clean_httpFetch hprivate hagrees hstable _ _ url) fun result => ?_
  split
  · refine .bind (clean_httpFetch hprivate hagrees hstable _ _ url) fun result => ?_
    split
    · exact hbrowser
    · exact .pure _
  · refine .ite (.bind hbrowser fun shown => ?_) (.pure _)
    split
    · exact .pure _
    · exact .pure _

theorem clean_fetchIn (mode : FetchMode) (url : Url) :
    Moves (Clean policy) (fetchIn world host policy mode url) := by
  have hbrowser := clean_browserFetch hprivate hagrees hstable hunrouted url
  have hauto := clean_autoHttpFetch hprivate hagrees hstable hunrouted url
  cases mode with
  | auto =>
    refine .ite (.bind hbrowser fun result => ?_) hauto
    split
    · exact .pure _
    · exact hauto
  | light => exact clean_httpFetch hprivate hagrees hstable _ _ url
  | markdown => exact clean_httpFetch hprivate hagrees hstable _ _ url
  | browser => exact hbrowser

end Modes

/-! Sample worlds -/

def loopback : Address := .v4 0x7f000001
def somewhere : Address := .v4 0x5db8d822

def samplePolicy : NetworkPolicy where
  flags address := ⟨address ≠ loopback, address = loopback, false, false, false, false, false⟩

/-- All URLs lead to one host, but for the one that a page of the browser redirects to. -/
def sampleWorld (getaddrinfo : Nat → Target → Option (List (Option Address)))
    (unrouted : List Url) : World where
  urlsplit _ := some { scheme := "http".toList, hostname := ['h'] }
  urlunsplit _ := ['u']
  urljoin _ location := location
  getaddrinfo := getaddrinfo
  clientTarget url := if url = ['r'] then ⟨['r'], 80⟩ else ⟨['h'], 80⟩
  respond _ _ := .ok { statusCode := 200 }
  browserRequests _ _ := [⟨['u'], unrouted⟩]
  browserResult _ _ := .ok "page"
  extract _ _ _ := .ok "page"

end MultiClaw.WebFetch
