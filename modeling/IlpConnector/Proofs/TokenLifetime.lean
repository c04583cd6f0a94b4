import IlpConnector.Link.Factory
import IlpConnector.Proofs.Calendar
import IlpConnector.Proofs.Delivery
import IlpConnector.Proofs.Oer
import IlpConnector.Proofs.Quiescence
import IlpConnector.Time.Timestamp

/-!
# How long a token may hold

The settings of a link over HTTP may name any lifetime of 64 bits for its tokens, but the end of a
token must be a time of 63 bits.  So there is a token at a time just if it is the secret itself, or
ends soon enough, and then it ends just its lifetime later; there is one at every time from 1970 up
to the year 9999 just if the lifetime leaves room for these years (`OutgoingHttp.token_of_custom`).
Where there is none, a task that connects the link or sends a packet over it breaks down; else the
packet is posted with the token, whatever comes of the request.  None of this depends on which texts
count as URLs.
-/

namespace IlpConnector

/-! ## Times of four-digit years -/

namespace Date

theorem daysBeforeYear_le {year year' : ℤ} (h : year ≤ year') :
    daysBeforeYear year ≤ daysBeforeYear year' := by
  simp only [daysBeforeYear]
  omega

theorem le_yearOfDay_iff {year n : ℤ} : year ≤ yearOfDay n ↔ daysBeforeYear year ≤ n := by
  obtain ⟨hstart, hend⟩ := yearOfDay_spec n
  refine ⟨fun h => (daysBeforeYear_le h).trans hstart, fun h => ?_⟩
  by_contra hlt
  exact absurd ((daysBeforeYear_le (by omega : yearOfDay n + 1 ≤ year)).trans h) (not_le.mpr hend)

end Date

namespace Instant

variable {t : Instant}

/-- The year that the instant is in. -/
def year (t : Instant) : ℤ := (Timestamp.Fields.ofInstant t).date.year

/-- The last second of the year 9999. -/
def lastSecond : ℤ := 253402300799

theorem le_year_iff {year : ℤ} :
    year ≤ t.year ↔ Date.daysBeforeYear year ≤ t.seconds / 86400 + Date.epochDay :=
  Date.le_yearOfDay_iff

theorem le_year_iff_nonneg : 1970 ≤ t.year ↔ 0 ≤ t.seconds := by
  have hstart : Date.daysBeforeYear 1970 = Date.epochDay := by decide
  rw [le_year_iff, hstart]
  omega

theorem year_iff : 1970 ≤ t.year ∧ t.year ≤ 9999 ↔ 0 ≤ t.seconds ∧ t.seconds ≤ lastSecond := by
  have hend : Date.daysBeforeYear 10000 = 2932897 + Date.epochDay := by decide
  have hlast : t.year ≤ 9999 ↔ ¬ 10000 ≤ t.year := by omega
  rw [le_year_iff_nonneg, hlast, le_year_iff, hend, lastSecond]
  omega

end Instant

/-! ## Tokens and their ends -/

namespace OutgoingHttp

variable {urls : UrlReader} {custom : CustomSettings} {h : OutgoingHttp} {now : Instant}

/-- The lifetime that settings name, in seconds. -/
def lifetimeSetting? (custom : CustomSettings) : Option ℕ :=
  match custom.get? lifetimeKey with
  | none => some 60
  | some s => Text.natBelow? UInt64.size s

theorem lt_of_natBelow? {limit n : ℕ} {s : String} (h : Text.natBelow? limit s = some n) :
    n < limit := by
  unfold Text.natBelow? at h
  exact of_decide_eq_true (Option.filter_eq_some_iff.mp h).2

theorem natBelow?_of_readLifetime {s : String} {v : UInt64} (h : readLifetime s = .ok v) :
    Text.natBelow? UInt64.size s = some v.toNat := by
  unfold readLifetime at h
  split at h
  · rename_i n hn
    obtain rfl := Except.ok.inj h
    rw [hn, UInt64.toNat_ofNat_of_lt' (lt_of_natBelow? hn)]
  · cases h

/-- The lifetime is the one that is set, whatever number of 64 bits it is. -/
theorem lifetime_of_custom (hh : ofCustom urls custom = .ok h) :
    lifetimeSetting? custom = some h.tokenLifetime.toNat := by
  obtain ⟨text, -, hh⟩ := exists_of_bind_eq_ok hh
  obtain ⟨url, -, hh⟩ := exists_of_bind_eq_ok hh
  obtain ⟨auth, -, hh⟩ := exists_of_bind_eq_ok hh
  obtain ⟨lifetime, hlifetime, hh⟩ := exists_of_bind_eq_ok hh
  obtain ⟨secret, -, hh⟩ := exists_of_bind_eq_ok hh
  obtain rfl := Except.ok.inj hh
  unfold lifetimeSetting?
  cases hset : custom.get? lifetimeKey with
  | none =>
    rw [hset] at hlifetime
    obtain rfl := Except.ok.inj hlifetime
    rfl
  | some s =>
    rw [hset] at hlifetime
    exact natBelow?_of_readLifetime hlifetime

/-- The clock can hold the end of a token that is made now, if the token has one. -/
def Lasts (h : OutgoingHttp) (now : Instant) : Prop :=
  h.auth = .simple ∨ now.seconds + h.tokenLifetime.toNat < 2 ^ 63

instance (h : OutgoingHttp) (now : Instant) : Decidable (h.Lasts now) :=
  inferInstanceAs (Decidable (_ ∨ _))

/-- The second at which a token would end that is made now, on a clock without bounds. -/
def endFrom (h : OutgoingHttp) (now : Instant) : ℕ := (now.seconds + h.tokenLifetime.toNat).toNat

theorem endFrom_eq (hnow : 0 ≤ now.seconds) :
    (h.endFrom now : ℤ) = now.seconds + h.tokenLifetime.toNat :=
  Int.toNat_of_nonneg (Int.add_nonneg hnow (Int.natCast_nonneg _))

/-- A token that ends at this second, if it has an end. -/
def tokenUntil (h : OutgoingHttp) (expiry : ℕ) : String :=
  match h.auth with
  | .simple => h.secret
  | .signed => h.signedToken expiry

theorem token?_eq (hnow : 0 ≤ now.seconds) :
    h.token? now = if h.Lasts now then some (h.tokenUntil (h.endFrom now)) else none := by
  have hpow : Int.ofNat (Nat.pow 2 63) = 2 ^ 63 := by decide
  have he := h.endFrom_eq hnow
  cases hauth : h.auth with
  | simple =>
    have hlasts : h.Lasts now := Or.inl hauth
    rw [token?, tokenUntil, hauth, if_pos hlasts]
  | signed =>
    have hlasts : h.Lasts now ↔ (h.endFrom now : ℤ) < 2 ^ 63 := by simp [Lasts, hauth, he]
    rw [token?, tokenUntil, hauth, expiry?, hpow, ← he, Int.toNat_natCast]
    by_cases hlt : (h.endFrom now : ℤ) < 2 ^ 63
    · rw [if_pos (hlasts.mpr hlt)]
      exact congrArg (Option.map h.signedToken) (if_pos hlt)
    · rw [if_neg (mt hlasts.mp hlt)]
      exact congrArg (Option.map h.signedToken) (if_neg hlt)

theorem exists_token_iff (hnow : 0 ≤ now.seconds) :
    (∃ t, h.token? now = some t) ↔ h.Lasts now := by
  rw [token?_eq hnow]
  split_ifs with hlasts <;> simp [hlasts]

/-- The greatest lifetime with which tokens end in time until the end of the year 9999. -/
def maxLifetime : ℕ := 9223371783452475008

/-- There is a token whenever there are four digits in the year, just if the lifetime leaves room
for the last second of these years. -/
theorem forall_exists_token_iff :
    (∀ now : Instant, 1970 ≤ now.year ∧ now.year ≤ 9999 → ∃ t, h.token? now = some t) ↔
      h.auth = .simple ∨ h.tokenLifetime.toNat ≤ maxLifetime := by
  constructor
  · intro hall
    have hlast : (Instant.ofSeconds Instant.lastSecond 0).seconds = Instant.lastSecond := by decide
    have hnow : 0 ≤ (Instant.ofSeconds Instant.lastSecond 0).seconds := by decide
    have hlasts := (exists_token_iff hnow).mp (hall _ (Instant.year_iff.mpr (by decide)))
    rw [Lasts, hlast, Instant.lastSecond] at hlasts
    refine hlasts.imp_right fun hlt => ?_
    rw [maxLifetime]
    omega
  · intro hroom now hyear
    obtain ⟨hnow, hle⟩ := Instant.year_iff.mp hyear
    refine (exists_token_iff hnow).mpr (hroom.imp_right fun hroom => ?_)
    rw [Instant.lastSecond] at hle
    rw [maxLifetime] at hroom
    omega

theorem get?_claims (h : OutgoingHttp) (e : ℕ) : (h.claims e).get? "exp" = some (.int e) := by
  unfold claims Document.get? claim
  cases h.issuer <;> cases h.audience <;> simp

end OutgoingHttp

/-! ## Tasks that need a token -/

theorem Network.link?_setLink {n : Network} {r : LinkRef} {l : NetworkLink}
    (hl : n.link? r = some l) (l' : NetworkLink) : (n.setLink r l').link? r = some l' := by
  obtain ⟨e, he, rfl⟩ := Option.map_eq_some_iff.mp hl
  simp [link?, setLink, he]

/-- The network when this request has been made besides. -/
def Network.posted (n : Network) (request : HttpRequest) : Network :=
  { n with requests := n.requests ++ [request] }

/-- How a task ends whose request has come to this. -/
def Outcome.ofHost (result : Except String HttpResponse) : Outcome :=
  match HttpResponse.answer result with
  | .error e => .linkFailed e
  | .ok r => .replied r

namespace Procedure

variable {h : OutgoingHttp} {r : LinkRef}

/-- A task that needs a token now and then goes on so. -/
def withToken (h : OutgoingHttp) (now : Instant) {α : Type}
    (next : Flow Network Procedure Outcome α) : Flow Network Procedure Outcome α :=
  if (h.token? now).isSome then next else .crash clockOverflow

theorem moveTransport_http : moveTransport (.http h) .open
    = .act (fun n => (n.now, n)) fun now => withToken h now (.done (.ok ())) := by
  refine congrArg (Flow.act _) (funext fun now => ?_)
  dsimp only [withToken, Flow.bind]
  cases h.token? now <;> rfl

/-- How a task goes on whose request comes to this after so many milliseconds, or to nothing. -/
def hearHost : Option (ℕ × Except String HttpResponse) → Task Outcome
  | none => .stall
  | some (millis, result) =>
    if millis ≠ 0 then .sleep millis fun _ => .done (.ofHost result) else .done (.ofHost result)

theorem askHost_eq (request : HttpRequest) : askHost request
    = .act (fun n => (n.exchange n.requests request, n.posted request)) hearHost := by
  refine congrArg (Flow.act _) (funext fun result => ?_)
  rcases result with - | ⟨millis, result⟩
  · rfl
  · dsimp only [Flow.bind, hearHost, Outcome.ofHost]
    generalize HttpResponse.answer result = answer
    split_ifs <;> cases answer <;> rfl

theorem carryPacket_http {now : Instant} (hnow : 0 ≤ now.seconds) (operator : Option Address)
    (p : Prepare) : carryPacket operator now p (.http h)
      = if h.Lasts now then askHost (h.request (h.tokenUntil (h.endFrom now)) p)
        else .crash clockOverflow := by
  dsimp only [carryPacket]
  rw [OutgoingHttp.token?_eq hnow]
  split_ifs <;> rfl

/-- The first move of a call. -/
def beginCall (c : LinkCall) (r : LinkRef) (n : Network) : LinkProgress × Network :=
  match n.link? r with
  | none => (.returned (.ok ()), n)
  | some l => ((l.begin c).2, n.setLink r (l.begin c).1)

/-- The move of a call on the transport's answer. -/
def resumeCall (r : LinkRef) (wait : LinkWait) (answer : Except LinkError Unit) (n : Network) :
    LinkProgress × Network :=
  match n.link? r with
  | none => (.returned (.ok ()), n)
  | some l =>
    let (l, events, progress) := l.resume wait answer
    (progress, (n.setLink r l).tell l events)

/-- How a call goes on that waits for the transport of a link that looks so. -/
def afterLook (r : LinkRef) (waits : ℕ) (wait : LinkWait) : Option NetworkLink → Task Outcome
  | none => .done .finished
  | some l => (moveTransport l.transport wait.step).bind fun answer =>
    .act (resumeCall r wait answer) (goOn r waits)

theorem goOn_waiting (waits : ℕ) (wait : LinkWait) : goOn r (waits + 1) (.waiting wait)
    = .act (fun n => (n.link? r, n)) (afterLook r waits wait) := by
  refine congrArg (Flow.act _) (funext fun l => ?_)
  cases l <;> rfl

end Procedure

namespace Scheduler

open Procedure (task clockOverflow beginCall resumeCall goOn withToken)

variable {s : Scheduler Network Procedure Outcome} {r : LinkRef} {l : NetworkLink}
  {h : OutgoingHttp} {id : ℕ}

/-- How a task ends that needs a token now. -/
def endWithToken (h : OutgoingHttp) (now : Instant) (o : Outcome) : Ending Outcome :=
  if (h.token? now).isSome then .finished o else .crashed clockOverflow

theorem goes_crash (m : String) :
    Goes task 1 (s, some (id, .crash m)) (s.finish id (.crashed m), none) := fun _ => rfl

/-- The tasks when a link counts as connected. -/
def flagged (s : Scheduler Network Procedure Outcome) (r : LinkRef) (l : NetworkLink) :
    Scheduler Network Procedure Outcome :=
  { s with state := s.state.setLink r { l with connected := true } }

theorem link?_flagged (hl : s.state.link? r = some l) :
    (flagged s r l).state.link? r = some { l with connected := true } :=
  Network.link?_setLink hl _

theorem goes_flag (hl : s.state.link? r = some l) (hdown : l.connected = false) :
    Goes task 1 (s, some (id, task (.turn .connect r)))
      (flagged s r l, some (id, goOn r 2 (.waiting .connecting))) := by
  have hbegin : beginCall .connect r s.state = (.waiting .connecting, (flagged s r l).state) := by
    simp [beginCall, hl, Link.begin, hdown, flagged]
  have hmove : Goes task 1 (s, some (id, .act (beginCall .connect r) (goOn r 2))) _ := goes_act _ _
  rwa [hbegin] at hmove

/-- A call that connects looks at its link, and then at the clock for a token. -/
theorem goes_ask (hl : s.state.link? r = some l) (ht : l.transport = .http h) :
    Goes task 2 (s, some (id, goOn r 2 (.waiting .connecting)))
      (s, some (id, (withToken h s.state.now (.done (.ok ()))).bind fun answer =>
        .act (resumeCall r .connecting answer) (goOn r 1))) := by
  have hlook : Goes task 1 (s, some (id, .act (fun n => (n.link? r, n))
      (Procedure.afterLook r 1 .connecting))) _ := goes_act _ _
  rw [← Procedure.goOn_waiting, hl, Procedure.afterLook, LinkWait.step, ht,
    Procedure.moveTransport_http] at hlook
  exact hlook.trans (goes_act _ _)

/-- Once a link over HTTP counts as connected, the task that connects it makes a token. -/
theorem goes_connect_http (hl : s.state.link? r = some l) (hdown : l.connected = false)
    (ht : l.transport = .http h) :
    ∃ (s' : Scheduler Network Procedure Outcome) (moves : ℕ), s'.state.isConnected r = true ∧
      Goes task moves (s, some (id, task (.turn .connect r)))
        (s'.finish id (endWithToken h s.state.now .finished), none) := by
  have hflag : Goes task 1 (s, some (id, task (.turn .connect r))) _ := goes_flag hl hdown
  have hask := hflag.trans (goes_ask (link?_flagged hl) ht)
  change Goes task 3 _ (flagged s r l, some (id, (withToken h s.state.now _).bind _)) at hask
  unfold withToken at hask
  unfold endWithToken
  split_ifs at hask ⊢ with htoken
  · have hresume : resumeCall r .connecting (.ok ()) (flagged s r l).state
        = (.returned (.ok ()), ((flagged s r l).state.setLink r { l with connected := true }).tell
            { l with connected := true } [.connected l.id]) := by
      simp [resumeCall, link?_flagged hl, Link.resume]
    have hlast := hask.trans (goes_act _ _)
    rw [hresume] at hlast
    exact ⟨_, _, Network.isConnected_setLink (link?_flagged hl) _, hlast.trans (goes_done _)⟩
  · exact ⟨flagged s r l, _, Network.isConnected_setLink hl _, hask.trans (goes_crash _)⟩

/-- Where a task is that sends a packet over HTTP now, with a token that ends at this second: it has
made its request and waits for what comes of it, unless there is no token. -/
def afterPost (s : Scheduler Network Procedure Outcome) (h : OutgoingHttp) (id : ℕ) (p : Prepare) :
    Point Network Procedure Outcome :=
  let request := h.request (h.tokenUntil (h.endFrom s.state.now)) p
  if h.Lasts s.state.now then
    ({ s with state := s.state.posted request },
      some (id, Procedure.hearHost (s.state.exchange s.state.requests request)))
  else (s.finish id (.crashed clockOverflow), none)

/-- A task that sends a packet over a link over HTTP makes a token and posts the packet with it. -/
theorem goes_send_http (hl : s.state.link? r = some l) (hup : l.connected = true)
    (ht : l.transport = .http h) (hnow : 0 ≤ s.state.now.seconds) (p : Prepare) :
    Goes task 2 (s, some (id, task (.send r p))) (afterPost s h id p) := by
  have hlook : Goes task 1 (s, some (id, .act
      (fun n => ((n.link? r, n.operatorOf (n.ownerOf r), n.now), n))
      (Procedure.afterLink Procedure.carryPacket p))) _ := goes_act _ _
  rw [← Procedure.sendBy_eq, hl, Procedure.afterLink_up hup, ht, Procedure.carryPacket_http hnow]
    at hlook
  unfold afterPost
  split_ifs at hlook ⊢
  · rw [Procedure.askHost_eq] at hlook
    exact hlook.trans (goes_act _ _)
  · exact hlook.trans (goes_crash _)

end Scheduler

namespace OutgoingHttp

open Scheduler (Goes)
open Procedure (task clockOverflow)

variable {urls : UrlReader} {custom : CustomSettings} {h : OutgoingHttp}

theorem endWithToken_eq {now : Instant} (hyear : 1970 ≤ now.year) (o : Outcome) :
    Scheduler.endWithToken h now o
      = if h.Lasts now then .finished o else .crashed clockOverflow := by
  have htoken := exists_token_iff (h := h) (Instant.le_year_iff_nonneg.mp hyear)
  rw [← Option.isSome_iff_exists] at htoken
  unfold Scheduler.endWithToken
  simp only [htoken]

/-- Of accepted settings, whatever counts as a URL and whatever the lifetime that they name: there is
a token just as long as it is the secret itself or the clock can hold its end, and then it says that
it ends just its lifetime later.  So a task that connects a link with these settings or sends a packet
over it breaks down just when there is none, and never does in years of four digits if the lifetime
leaves room for them.  A packet that is sent is posted once, with the token, and what comes of the
request is the answer. -/
theorem token_of_custom (hh : ofCustom urls custom = .ok h) :
    lifetimeSetting? custom = some h.tokenLifetime.toNat ∧
    (∀ now : Instant, 1970 ≤ now.year →
      (h.endFrom now : ℤ) = now.seconds + h.tokenLifetime.toNat ∧
      (h.claims (h.endFrom now)).get? "exp" = some (.int (h.endFrom now)) ∧
      h.token? now = if h.Lasts now then some (h.tokenUntil (h.endFrom now)) else none) ∧
    ((∀ now : Instant, 1970 ≤ now.year ∧ now.year ≤ 9999 → ∃ t, h.token? now = some t) ↔
      h.auth = .simple ∨ h.tokenLifetime.toNat ≤ maxLifetime) ∧
    ∀ (s : Scheduler Network Procedure Outcome) (r : LinkRef) (l : NetworkLink) (id : ℕ),
      s.state.link? r = some l → (LinkFactory.http urls).transport custom = .ok l.transport →
      1970 ≤ s.state.now.year →
      (l.connected = false →
        ∃ (s' : Scheduler Network Procedure Outcome) (moves : ℕ), s'.state.isConnected r = true ∧
          Goes task moves (s, some (id, task (.turn .connect r)))
            (s'.finish id (if h.Lasts s.state.now then .finished .finished
              else .crashed clockOverflow), none)) ∧
      (l.connected = true → ∀ p : Prepare,
        Goes task 2 (s, some (id, task (.send r p))) (s.afterPost h id p)) := by
  refine ⟨lifetime_of_custom hh, fun now hyear => ?_, forall_exists_token_iff,
    fun s r l id hl hmade hyear => ?_⟩
  · have hnow := Instant.le_year_iff_nonneg.mp hyear
    exact ⟨h.endFrom_eq hnow, h.get?_claims _, token?_eq hnow⟩
  · have ht : l.transport = .http h := by
      obtain ⟨h', hh', ht⟩ := exists_of_map_eq_ok hmade
      rw [← ht, Except.ok.inj (hh'.symm.trans hh)]
    rw [← endWithToken_eq hyear]
    exact ⟨fun hdown => Scheduler.goes_connect_http hl hdown ht, fun hup p =>
      Scheduler.goes_send_http hl hup ht (Instant.le_year_iff_nonneg.mp hyear) p⟩

deriving instance DecidableEq for OutgoingHttp

/-- Settings with signed tokens that hold for so many seconds. -/
def signedSettings (lifetime : String) : CustomSettings :=
  Dict.ofList [(urlKey, "https://alice.example.com/ilp"), (authKey, "JWT_HS_256"),
    (secretKey, "shh"), (lifetimeKey, lifetime)]

def signedLink (lifetime : UInt64) : OutgoingHttp where
  url := "https://alice.example.com/ilp"
  auth := .signed
  subject := ""
  issuer := none
  audience := none
  secret := "shh"
  tokenLifetime := lifetime

def autumn2020 : Instant := .ofSeconds 1600000000 0

/-- A link that is not connected yet, with nothing else. -/
def aloneWith (h : OutgoingHttp) : Scheduler Network Procedure Outcome where
  state := {
    now := autumn2020
    links := [("", { settings := ⟨.ilpOverHttp, ∅⟩, transport := .http h })] }

/-- Tokens that hold for an hour are made in all years of four digits. -/
theorem token_of_custom_hour :
    ofCustom Url.reader (signedSettings "3600") = .ok (signedLink 3600) ∧
    (∀ now : Instant, 1970 ≤ now.year ∧ now.year ≤ 9999 →
      ∃ t, (signedLink 3600).token? now = some t) ∧
    (signedLink 3600).token? autumn2020 = some ((signedLink 3600).signedToken 1600003600) ∧
    ∃ (s : Scheduler Network Procedure Outcome) (moves : ℕ),
      s.state.isConnected ⟨0⟩ = true ∧
      Goes task moves (aloneWith (signedLink 3600), some (0, task (.turn .connect ⟨0⟩)))
        (s.finish 0 (.finished .finished), none) := by
  have hmade : ofCustom Url.reader (signedSettings "3600") = .ok (signedLink 3600) := by
    decide +kernel
  have hyear : 1970 ≤ autumn2020.year := by decide +kernel
  have hlasts : (signedLink 3600).Lasts autumn2020 := by decide
  obtain ⟨-, htoken, hall, hlink⟩ := token_of_custom hmade
  obtain ⟨he, -, heq⟩ := htoken autumn2020 hyear
  have hend : (signedLink 3600).endFrom autumn2020 = 1600003600 :=
    Int.ofNat_inj.mp (he.trans (by decide))
  obtain ⟨s, moves, hs, hgoes⟩ := (hlink (aloneWith (signedLink 3600)) ⟨0⟩ _ 0 rfl
    (congrArg (Except.map Transport.http) hmade) hyear).1 rfl
  rw [if_pos hlasts, hend] at heq
  rw [show (aloneWith (signedLink 3600)).state.now = autumn2020 from rfl, if_pos hlasts] at hgoes
  exact ⟨hmade, hall.mpr (Or.inr (by decide)), heq, s, moves, hs, hgoes⟩

/-- With the longest lifetime that the clock could hold by itself, no token can be made after 1970,
and connecting the link breaks down. -/
theorem token_overflows :
    ofCustom Url.reader (signedSettings "9223372036854775807")
      = .ok (signedLink 9223372036854775807) ∧
    1970 ≤ autumn2020.year ∧ autumn2020.year ≤ 9999 ∧
    (signedLink 9223372036854775807).token? autumn2020 = none ∧
    ((match (Scheduler.perform task (.turn .connect ⟨0⟩)
        (aloneWith (signedLink 9223372036854775807))).1 with
      | some (.crashed m) => some m
      | _ => none) = some clockOverflow) := by
  refine ⟨?_, ?_, ?_, ?_, ?_⟩ <;> decide +kernel

end OutgoingHttp

end IlpConnector
