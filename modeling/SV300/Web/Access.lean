/- SV300/Web/Access
   digest: Sessions, administrators' changes and firmware over whole runs of the web server. -/

import SV300.Web.Router

set_option autoImplicit false
set_option relaxedAutoImplicit false

namespace SV300.Web.Access

open SV300.Library.Runs
open SV300.Library.Stream (arrived)
open SV300.Modbus.Map (State)
open SV300.Web.Firmware
open SV300.Web.Form
open SV300.Web.Router
open SV300.Web.Session

/-- What happens to the server: a request, a power failure in an upload, a start, or work of other
tasks, which change registers and clock in any way, and of FTP, which stores or deletes the image in
any way. A request is served to its end before the next: the upload has one buffer, for one upload at
a time. -/
inductive Event
  | request (r : Request)
  | cut (r : Request) (kept : Nat)
  | start (b : Start) (regs : State)
  | others (regs : State)
  | ftp (image : File)

section Runs

variable (env : Build)

/-- A power failure in an upload; elsewhere it changes no file. -/
def cutOff (s : Server) (r : Request) (kept : Nat) : Server :=
  if adminUri r = some .fwupload ∧ webRole env s r = .admin then
    { s with usrApp := uploadCut r.volume r.contentLength (r.stream.map bytes) kept s.usrApp }
  else s

def step (s : Server) : Event → Server
  | .request r => (webRequestCallback env s r).1
  | .cut r kept => cutOff env s r kept
  | .start b regs =>
    let k := webKeyLoad b s.keyFile
    { s with regs := regs, webKey := k.webKey, keyFile := k.file, rebootFlag := 0 }
  | .others regs => { s with regs := regs }
  | .ftp image => { s with usrApp := image }

abbrev after (s : Server) (es : List Event) : Server := run (step env) s es

def keys (s : Server) : Keys := ⟨s.webKey, s.keyFile⟩

/-- What a request leaves of the keys, the image and the wish to restart. -/
structure Rest (s : Server) (r : Request) (t : Server) : Prop where
  keys : keys t = keys s
  image : t.usrApp = s.usrApp ∨
    adminUri r = some .fwupload ∧ webRole env s r = .admin ∧
      t.usrApp = (apiFwUpload r.volume r.contentLength (r.stream.map bytes) s.usrApp).1
  reboot : t.rebootFlag = s.rebootFlag ∨ ∃ n, fwCheckUsrApp r.volume s.usrApp = .ok n

private theorem request_rest (s : Server) (r : Request) :
    Rest env s r (webRequestCallback env s r).1 := by
  rcases request_cases env s r with kept | ⟨admin, a, named, served⟩
  · exact ⟨by rw [keys, kept.webKey, kept.keyFile]; rfl, .inl kept.usrApp, .inl kept.rebootFlag⟩
  rw [served]
  rcases serveAdmin_cases env s r admin a with ⟨regs, result⟩ | ⟨rfl, result⟩ | ⟨rfl, n, ok, result⟩
  · rw [result]
    exact ⟨rfl, .inl rfl, .inl rfl⟩
  · rw [result]
    exact ⟨rfl, .inr ⟨named, admin, rfl⟩, .inl rfl⟩
  · rw [result]
    exact ⟨rfl, .inl rfl, .inr ⟨n, ok⟩⟩

/-- Every start of the run can read the key file. -/
def Opens : Event → Prop
  | .start b _ => b.opens = true
  | _ => True

private theorem keys_cutOff (s : Server) (r : Request) (kept : Nat) :
    keys (cutOff env s r kept) = keys s := by
  unfold cutOff
  split_ifs <;> rfl

private theorem keys_after {s : Server} (saved : Saved (keys s)) {es : List Event}
    (opens : ∀ e ∈ es, Opens e) : keys (after env s es) = keys s := by
  have guarded : Along (step env) (fun _ e => Opens e) s es := along_of_forall opens s
  refine invariant_run (I := fun t => keys t = keys s) (fun t e same opens => ?_) rfl guarded
  cases e with
  | request r => exact (request_rest env t r).keys.trans same
  | cut r kept => exact (keys_cutOff env t r kept).trans same
  | start b regs =>
    have found : webKeyLoad b (keys t).file = keys t := webKeyLoad_saved (same.symm ▸ saved) opens
    exact found.trans same
  | others regs => exact same
  | ftp image => exact same

private theorem sid_plain (mac : Mac) (key : List UInt8) (now : UInt32) (role : Role) :
    ∀ c ∈ webMakeToken mac key now role, c ≠ ';' ∧ c ≠ ' ' := by
  intro c inside
  have digit := webMakeToken_cases mac key now role c inside
  constructor <;> rintro rfl <;> exact absurd digit (by decide)

/-- A login's token, sent back in a cookie, is accepted for the login's role exactly while the clock
is less than eight hours past the login or behind it by less than half its range less eight hours,
whatever has happened in between, if the key was saved and starts can read it. -/
theorem session_life {s : Server} {r : Request} {role : Role} {token : List Char}
    (answered : (webRequestCallback env s r).2 = .login role token) (saved : Saved (keys s))
    {es : List Event} (opens : ∀ e ∈ es, Opens e) {q : Request} {before : List (List Char)}
    {rest : List Char} (others : ∀ o ∈ before, Other o) (ends : rest = [] ∨ ∃ t, rest = ';' :: t)
    (cookie : q.cookie = cookieHeader before token rest) :
    let t := after env s (.request r :: es)
    let elapsed := (t.regs.sysTick1s - s.regs.sysTick1s).toNat
    webRole env t q = if elapsed < 28800 ∨ 2 ^ 31 + 28800 < elapsed then role else .none := by
  obtain ⟨-, -, known, -, rfl⟩ := login_reply env s r answered
  have every : ∀ e ∈ Event.request r :: es, Opens e := by
    intro e inside
    rcases List.mem_cons.mp inside with rfl | later
    · trivial
    · exact opens e later
  have key : (after env s (.request r :: es)).webKey = s.webKey :=
    congrArg Keys.webKey (keys_after env saved every)
  have found : cookieToken (webTokLen + 1) q.cookie =
      webMakeToken env.mac s.webKey s.regs.sysTick1s role := by
    rw [cookie]
    apply cookieToken_header others (sid_plain _ _ _ _) _ ends
    rw [webMakeToken_length]
    exact Nat.lt_succ_self _
  dsimp only
  rw [webRole, found, key, webMakeToken, webVerifyToken_signed _ _ _ _ known]
  simp only [live_issued]

def bench : Build := ⟨fun _ _ _ => 0, Modbus.Map.noFetch, 3, fun _ => []⟩

def zeroKey : List UInt8 := List.replicate 16 0

def fresh : Server := ⟨Snmp.zeros, zeroKey, some zeroKey, none, 0⟩

def working : Volume := ⟨true, true, true, 2000000⟩

def loginRequest : Request where
  method := "POST".toList
  uri := "/api/login".toList
  query := []
  cookie := []
  contentLength := 27
  stream := ["username=ntek&".toList, "password=0300".toList]
  volume := working

def adminToken : List Char := webMakeToken bench.mac zeroKey 0 .admin

def asAdmin (method uri : String) (stream : List (List Char)) : Request where
  method := method.toList
  uri := uri.toList
  query := []
  cookie := cookieHeader ["lang=ko".toList] adminToken []
  contentLength := stream.flatten.length
  stream := stream
  volume := working

private theorem saved_fresh : Saved (keys fresh) := ⟨zeroKey, rfl, rfl, rfl⟩

private theorem login_fresh :
    (webRequestCallback bench fresh loginRequest).2 = .login .admin adminToken := by
  rfl

/-- A session over a restart. -/
theorem session_life_restart :
    let t := after bench fresh [.request loginRequest, .start ⟨true, none, 7⟩ Snmp.zeros]
    let elapsed := (t.regs.sysTick1s - fresh.regs.sysTick1s).toNat
    webRole bench t (asAdmin "GET" "/api/me" []) =
      if elapsed < 28800 ∨ 2 ^ 31 + 28800 < elapsed then .admin else .none :=
  session_life bench login_fresh saved_fresh (by simp [Opens])
    (by simp only [List.forall_mem_singleton]; exact ⟨by decide, by decide⟩) (.inl rfl) rfl

/-- The head has been signed for a login of the run, with the key that is in use at its end. -/
def Issued (s : Server) (es : List Event) (role : Role) (exp : UInt32) : Prop :=
  ∃ a r b token, es = a ++ .request r :: b ∧
    (webRequestCallback env (after env s a) r).2 = .login role token ∧
    exp = (after env s a).regs.sysTick1s + webSessTtl ∧
    (after env s a).webKey = (after env s es).webKey

/-- A token of the right length with the signature of its head. -/
def Signed (key : List UInt8) (tok : List Char) : Prop :=
  tok.length = webTokLen ∧ tok.drop 10 = webSign env.mac key (tok.take 10)

/-- A request does not carry a signature that the server has not given out. -/
def Unforged (s : Server) (es : List Event) (r : Request) : Prop :=
  let tok := cookieToken (webTokLen + 1) r.cookie
  Signed env (after env s es).webKey tok →
    ∃ role exp, Issued env s es role exp ∧ tok.take 10 = head role exp

/-- A login of the run as administrator, less than eight hours old on the clock or ahead of it, since
which the key has not changed. -/
def AdminLogin (s : Server) (es : List Event) : Prop :=
  ∃ a r b, es = a ++ .request r :: b ∧ r.uri = "/api/login".toList ∧ r.method = "POST".toList ∧
    cstr (formField (r.body 192) "username".toList 40) = "ntek".toList ∧
    cstr (formField (r.body 192) "password".toList 40) = "0300".toList ∧
    Live ((after env s a).regs.sysTick1s + webSessTtl) (after env s es).regs.sysTick1s ∧
    (after env s a).webKey = (after env s es).webKey

private theorem admin_credentials {body : List Char} (role : loginRole body = .admin) :
    cstr (formField body "username".toList 40) = "ntek".toList ∧
      cstr (formField body "password".toList 40) = "0300".toList := by
  unfold loginRole accountRole at role
  split_ifs at role with admin
  exact admin

private theorem admin_login {s : Server} {es : List Event} {r : Request}
    (unforged : Unforged env s es r)
    (admin : webRole env (after env s es) r = .admin) : AdminLogin env s es := by
  have known : webRole env (after env s es) r ≠ .none := by
    rw [admin]
    decide
  obtain ⟨exp, accepts⟩ := accepts_of_webVerifyToken known
  obtain ⟨role, exp', ⟨a, l, b, token, history, answered, expiry, key⟩, own⟩ :=
    unforged ⟨accepts.length, accepts.signed⟩
  obtain ⟨same, rfl⟩ := accepts_head accepts own
  obtain ⟨uri, method, -, asked, -⟩ := login_reply env _ l answered
  have isAdmin : role = .admin := same.symm.trans admin
  obtain ⟨user, pass⟩ := admin_credentials (asked.trans isAdmin)
  exact ⟨a, l, b, history, uri, method, user, pass, expiry ▸ accepts.live, key⟩

/-- At any point of any run, a request that carries no forged signature changes nothing but receive
counts and refreshed waves, unless an administrator has logged in before it. -/
theorem changes_by_admin {s : Server} {es : List Event} {r : Request}
    (unforged : Unforged env s es r) :
    Kept (after env s es) (after env s (es ++ [.request r])) ∨ AdminLogin env s es := by
  have last : after env s (es ++ [.request r]) = step env (after env s es) (.request r) :=
    run_append _ _ _ _
  rw [last]
  rcases request_cases env (after env s es) r with kept | ⟨admin, -⟩
  · exact .inl kept
  · exact .inr (admin_login env unforged admin)

private theorem unforged_admin :
    Unforged bench fresh [.request loginRequest] (asAdmin "POST" "/api/savecfg" []) :=
  fun _ => ⟨.admin, 28800, ⟨[], loginRequest, [], adminToken, rfl, login_fresh, rfl, rfl⟩, rfl⟩

/-- Settings saved after a login. -/
theorem changes_by_admin_save :
    Kept (after bench fresh [.request loginRequest])
        (after bench fresh ([.request loginRequest] ++
          [.request (asAdmin "POST" "/api/savecfg" [])])) ∨
      AdminLogin bench fresh [.request loginRequest] :=
  changes_by_admin bench unforged_admin

/-- An upload of the run by an administrator, of which the image is the beginning. -/
structure Origin (s : Server) (a : List Event) (e : Event) (r : Request) (image : List UInt8) :
    Prop where
  event : e = .request r ∨ ∃ kept, e = .cut r kept
  upload : adminUri r = some .fwupload
  admin : webRole env (after env s a) r = .admin
  part : image <+: (arrived (r.stream.map bytes)).take r.contentLength
  whole : e = .request r → Complete r.volume r.contentLength (r.stream.map bytes) ∧
    image = (arrived (r.stream.map bytes)).take r.contentLength

/-- Where an image on file comes from: it was there when the run began, it came by FTP, or an
administrator has uploaded it. -/
inductive Source (s : Server) (es : List Event) (image : List UInt8) : Prop
  | found (here : s.usrApp = some image)
  | ftp (member : .ftp (some image) ∈ es)
  | upload (a : List Event) (e : Event) (b : List Event) (r : Request) (history : es = a ++ e :: b)
      (origin : Origin env s a e r image)

private theorem Source.later {s : Server} {es : List Event} {image : List UInt8}
    (source : Source env s es image) (e : Event) : Source env s (es ++ [e]) image := by
  cases source with
  | found here => exact .found here
  | ftp member => exact .ftp (List.mem_append_left _ member)
  | upload a f b r history origin =>
    exact .upload a f (b ++ [e]) r (by rw [history, List.append_assoc, List.cons_append]) origin

end Runs

end SV300.Web.Access
