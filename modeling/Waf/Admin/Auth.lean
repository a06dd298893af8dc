import Waf.Admin.Restart

/-!
# Authentication

`handle` of `admin.rs` answers a call to the API only when `auth_ok` finds the token of the runtime in
it. An empty token would let every call through. No process ever has one: a fresh process has the one
that `generate_token` makes, a file with an empty one keeps what was there, and no call changes it. So
a call without the token is refused and changes nothing (`unauthenticated_refused`).
-/

namespace Waf
open Lib

/-! ## Handling a call -/

/-- What `handle` writes: one reply, or the live stream. -/
inductive Response where
  | reply (r : Reply)
  | stream

def unauthorized : Reply := ⟨401, .error "unauthorized"⟩

namespace ParsedReq

def authOk (req : ParsedReq) (token : Str) : Bool :=
  if token.isEmpty then true
  else
    let header := (req.headers.get "authorization").getD []
    match "Bearer ".toList.isPrefixOf? header with
    | some rest => rest == token
    | none =>
      match "bearer ".toList.isPrefixOf? header with
      | some rest => rest == token
      | none => ((req.query.get "token").map (· == token)).getD false

/-- The pages of the dashboard are left out. -/
def routeStatic (req : ParsedReq) : Reply :=
  match String.ofList req.method, String.ofList req.path with
  | "GET", "/healthz" => ⟨200, .text "ok\n"⟩
  | "GET", "/" | "GET", "/index.html" | "GET", "/firewall" | "GET", "/traffic"
  | "GET", "/settings" => ⟨200, .report⟩
  | "GET", "/static/dashboard.js" => ⟨200, .report⟩
  | "GET", "/static/dashboard.css" => ⟨200, .report⟩
  | _, _ => ⟨404, .error "not found"⟩

/-- `route_timeframe`, which reports stored events. -/
def routeTimeframe (_ : ParsedReq) : Reply := okJson .report

/-- The credential of a header with the Bearer scheme. -/
def BearerIs (req : ParsedReq) (credential : Str) : Prop :=
  req.headers.get "authorization" = some ("Bearer " ++ credential) ∨
    req.headers.get "authorization" = some ("bearer " ++ credential)

/-- A call presents a token as its Bearer credential, or as a query parameter if it has none. -/
def Presents (req : ParsedReq) (token : Str) : Prop :=
  req.BearerIs token ∨
    (∀ credential, ¬ req.BearerIs credential) ∧ req.query.get "token" = some token

end ParsedReq

namespace Process

def handle (crates : Crates) (json : List UInt8 → Except Str Patch) (p : Process)
    (req : ParsedReq) : Response × Process :=
  if req.path = "/api/stream".toList ∧ req.method = "GET".toList then
    if req.authOk p.engine.runtime.authToken then (.stream, p) else (.reply unauthorized, p)
  else if (req.path = "/api/events/range".toList ∨ req.path = "/api/events/series".toList)
      ∧ req.method = "GET".toList then
    if req.authOk p.engine.runtime.authToken then (.reply req.routeTimeframe, p)
    else (.reply unauthorized, p)
  else if startsWith req.path "/api/" then
    if req.authOk p.engine.runtime.authToken then
      (.reply (p.routeApi crates json req).1, (p.routeApi crates json req).2)
    else (.reply unauthorized, p)
  else (.reply req.routeStatic, p)

end Process

variable {crates : Crates} {json : List UInt8 → Except Str Patch} {p : Process} {req : ParsedReq}
  {token : Str}

namespace ParsedReq

/-- The Bearer credential that `auth_ok` reads. -/
def credential (req : ParsedReq) : Option Str :=
  (req.headers.get "authorization").bind fun header =>
    ("Bearer ".toList.isPrefixOf? header).or ("bearer ".toList.isPrefixOf? header)

/-- The credential is what the header has behind its scheme. -/
lemma credential_iff {c : Str} : req.credential = some c ↔ req.BearerIs c := by
  rw [credential, BearerIs]
  cases req.headers.get "authorization" with
  | none => exact ⟨nofun, by rintro (h | h) <;> cases h⟩
  | some header =>
    rw [Option.bind_some, Option.or_eq_some_iff, List.isPrefixOf?_eq_some_iff_append_eq,
      List.isPrefixOf?_eq_some_iff_append_eq, Option.some.injEq, Option.some.injEq]
    constructor
    · rintro (h | ⟨-, h⟩)
      · exact .inl h.symm
      · exact .inr h.symm
    · rintro (h | h)
      · exact .inl h.symm
      · refine .inr ⟨?_, h.symm⟩
        rw [h]
        rfl

/-- With a token set it is compared with the credential. -/
lemma authOk_eq (htoken : token ≠ []) : req.authOk token =
    match req.credential with
    | some c => c == token
    | none => ((req.query.get "token").map (· == token)).getD false := by
  rw [authOk, if_neg fun h => htoken (List.isEmpty_iff.mp h), credential]
  cases req.headers.get "authorization" with
  | none => rfl
  | some header =>
    rw [Option.getD_some, Option.bind_some]
    cases hupper : "Bearer ".toList.isPrefixOf? header with
    | some rest => simp only [hupper, Option.some_or]
    | none =>
      cases hlower : "bearer ".toList.isPrefixOf? header with
      | some rest => simp only [hupper, hlower, Option.none_or]
      | none => simp only [hupper, hlower, Option.none_or]

/-- With a token, `auth_ok` lets through the calls that present it. -/
lemma authOk_iff (htoken : token ≠ []) : req.authOk token = true ↔ req.Presents token := by
  rw [authOk_eq htoken, Presents]
  simp only [← credential_iff]
  cases req.credential with
  | some c => simp
  | none => cases req.query.get "token" <;> simp

end ParsedReq

namespace Process

/-- A call to the API that is not let through is refused. -/
lemma handle_refused (hpath : startsWith req.path "/api/" = true)
    (hauth : req.authOk p.engine.runtime.authToken = false) :
    p.handle crates json req = (.reply unauthorized, p) := by
  have hno : ¬ req.authOk p.engine.runtime.authToken = true := Bool.eq_false_iff.mp hauth
  rw [handle, if_pos hpath, if_neg hno, if_neg hno, if_neg hno, ite_self, ite_self]

/-- A call either is one of the API or changes nothing. -/
lemma handle_process : (p.handle crates json req).2 = p ∨
    (p.handle crates json req).2 = (p.routeApi crates json req).2 := by
  unfold handle
  split_ifs
  case _ => exact .inl rfl
  case _ => exact .inl rfl
  case _ => exact .inl rfl
  case _ => exact .inl rfl
  case _ => exact .inr rfl
  case _ => exact .inl rfl
  case _ => exact .inl rfl

/-- The processes that come about: one starts from any files, which also is how one restarts, loads a
file, handles a call, changes the level by the watchdog, or does what leaves the settings alone. -/
inductive Reachable (crates : Crates) (json : List UInt8 → Except Str Patch) : Process → Prop
  | start {cfg paths nanos pid thread banDisk runtimeDisk now} {p : Process}
    (hs : Process.start crates cfg paths (generateToken crates nanos pid thread) banDisk runtimeDisk
      now = some p) : Reachable crates json p
  | load {p : Process} {rt disk path} (h : Reachable crates json p)
    (hl : p.engine.runtime.bindPersistFile crates disk path = some rt) :
    Reachable crates json { p with engine := { p.engine with runtime := rt } }
  | handle {p : Process} {req : ParsedReq} (h : Reachable crates json p) :
    Reachable crates json (p.handle crates json req).2
  | autoUam {p : Process} {bps} (h : Reachable crates json p) :
    Reachable crates json (p.saveRuntime (p.engine.runtime.autoUam bps))
  | serve {p p' : Process} (h : Reachable crates json p) (hrt : p'.engine.runtime = p.engine.runtime) :
    Reachable crates json p'

/-- Settings of a configuration are valid. -/
lemma valid_fromConfig {cfg : Config} (htoken : token ≠ []) : (Runtime.fromConfig cfg token).Valid :=
  ⟨Nat.zero_le _, Nat.zero_le _, htoken⟩

lemma start_valid {cfg paths banDisk runtimeDisk now} (htoken : token ≠ [])
    (h : Process.start crates cfg paths token banDisk runtimeDisk now = some p) :
    p.engine.runtime.Valid := by
  obtain ⟨e, -, h⟩ := Option.bind_eq_some_iff.mp h
  cases paths with
  | none =>
    obtain rfl := Option.some.inj h
    exact valid_fromConfig htoken
  | some path =>
    obtain rfl := Option.some.inj h
    show (((Runtime.fromConfig cfg token).bindPersistFile crates runtimeDisk path.1).getD _).Valid
    cases hl : (Runtime.fromConfig cfg token).bindPersistFile crates runtimeDisk path.1 with
    | none => exact valid_fromConfig htoken
    | some rt => exact (valid_fromConfig htoken).bindPersistFile hl

/-- A call keeps them valid. -/
lemma routeApi_valid (h : p.engine.runtime.Valid) :
    (p.routeApi crates json req).2.engine.runtime.Valid := by
  have heffect := @routeApi_effect crates json p req
  generalize (p.routeApi crates json req).2 = p' at heffect
  cases heffect with
  | none => exact h
  | patch => exact h.applyPatch
  | settings hv => exact hv h
  | unban => exact h

lemma Reachable.valid (h : Reachable crates json p) : p.engine.runtime.Valid := by
  induction h with
  | start hs => exact start_valid Runtime.generateToken_ne_nil hs
  | load _ hl ih => exact ih.bindPersistFile hl
  | @handle p req _ ih =>
    obtain heq | heq := @handle_process crates json p req
    · rw [heq]
      exact ih
    · rw [heq]
      exact routeApi_valid ih
  | autoUam _ ih => exact ih.autoUam
  | serve _ hrt ih =>
    rw [hrt]
    exact ih

/-- Every process has a token, and a call to the API that does not present it is answered with 401 and
changes nothing. -/
theorem unauthenticated_refused (h : Reachable crates json p) :
    p.engine.runtime.authToken ≠ [] ∧
      ∀ req : ParsedReq, startsWith req.path "/api/" = true →
        ¬ req.Presents p.engine.runtime.authToken →
        p.handle crates json req = (.reply unauthorized, p) := by
  have htoken := h.valid.token
  refine ⟨htoken, fun req hpath hpresents => handle_refused hpath ?_⟩
  exact Bool.eq_false_iff.mpr fun hok => hpresents ((ParsedReq.authOk_iff htoken).mp hok)

/-- A call that opens the live stream without the token. -/
def openStream : ParsedReq where
  method := "GET"
  path := "/api/stream"

/-- The stream without a token. -/
theorem stream_refused : Runtime.sampleProcess.handle Runtime.sampleCrates (fun _ => .ok {}) openStream
    = (.reply unauthorized, Runtime.sampleProcess) := by
  have started : Reachable Runtime.sampleCrates (fun _ => .ok {}) Runtime.sampleProcess :=
    .start (Option.some_get _).symm
  refine (unauthenticated_refused started).2 openStream (by decide) ?_
  rintro ((h | h) | ⟨-, h⟩)
  · cases h
  · cases h
  · cases h

end Process

end Waf
