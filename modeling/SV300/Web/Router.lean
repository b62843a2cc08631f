/- SV300/Web/Router
   digest: The web server's requests: what each one asks for, who may ask, and what it changes. -/

import SV300.Modbus.Callback
import SV300.Modbus.ReadPaths
import SV300.Web.Firmware
import SV300.Web.Snmp

set_option autoImplicit false
set_option relaxedAutoImplicit false

namespace SV300.Web.Router

open SV300.Library.Stream (arrived)
open SV300.Modbus.Map
open SV300.Modbus.Callback
open SV300.Web.Body
open SV300.Web.Firmware
open SV300.Web.Form
open SV300.Web.Session
open SV300.Web.Snmp (apiSnmpSet apiSnmpGet bodySize)

/-- A request as the HTTP library hands it over, with the first 255 characters of its cookie field.
What comes behind its header arrives in pieces, and the file system serves it in one way or
another. -/
structure Request where
  method : List Char
  uri : List Char
  query : List Char
  cookie : List Char
  contentLength : Nat
  stream : List (List Char)
  volume : Volume

/-- What the requests share with the rest of the firmware. -/
structure Server where
  regs : State
  webKey : List UInt8
  keyFile : Option (List UInt8)
  usrApp : File
  /-- `pcntl->rebootFlag`. -/
  rebootFlag : UInt16

/-- What the server is built with: the digest of its tokens, the page requests of the registers, the
number of channels shown, and the registers that the fields of the General tab read. -/
structure Build where
  mac : Mac
  fetch : Fetcher
  webNch : Nat
  generalRegs : State → List Nat

inductive View
  | dashboard | events | feeders | channels | minmax | energynow | energylog | energyCsv | demandlog
  | demandCsv | harmonics | waveform | en50160 | vq | monthly | general
  deriving DecidableEq

inductive Reply
  | index
  | file
  | status (code : Nat)
  | login (role : Role) (token : List Char)
  | logout
  | me (role : Role)
  | ok
  | rejected
  | view (v : View)
  | words (ws : List UInt16)
  | snmp (text : List Char)
  | refused (r : Snmp.Refusal)
  | upload (r : UploadReply)
  | check (c : Except Fault Nat)
  | rebooting

def views : List (List Char × View) :=
  [("/api/dashboard".toList, .dashboard), ("/api/sv300/events".toList, .events),
    ("/api/feeders".toList, .feeders), ("/api/channels".toList, .channels),
    ("/api/minmax".toList, .minmax), ("/api/energynow".toList, .energynow),
    ("/api/energylog".toList, .energylog), ("/api/energy.csv".toList, .energyCsv),
    ("/api/demandlog".toList, .demandlog), ("/api/demand.csv".toList, .demandCsv),
    ("/api/harmonics".toList, .harmonics), ("/api/waveform".toList, .waveform),
    ("/api/en50160".toList, .en50160), ("/api/vq".toList, .vq),
    ("/api/monthly".toList, .monthly), ("/api/general".toList, .general)]

section Requests

variable (env : Build)

/-- `webRole`: the role of the request's cookie. -/
def webRole (s : Server) (r : Request) : Role :=
  webVerifyToken env.mac s.webKey s.regs.sysTick1s (cookieToken (webTokLen + 1) r.cookie)

def Request.body (r : Request) (max : Nat) : List Char :=
  webReadBody max r.contentLength r.stream

/-- The registers after reads of `rdReg`. -/
def readRegs (s : State) (as : List Nat) : State := as.foldl (fun s a => (readMemCb s a).1) s

/-- `qparam`: the number behind a key and `=`; minus one without the key. -/
def qparam (query key : List Char) : Int :=
  match strstr (key ++ ['=']) query with
  | none => -1
  | some p =>
    match (p.drop (key.length + 1)).dropWhile isBlank with
    | '-' :: t => -(magnitude t : Int)
    | '+' :: t => magnitude t
    | t => magnitude t

def apiLogin (s : Server) (r : Request) : Server × Reply :=
  if r.method ≠ "POST".toList then (s, .status 405)
  else
    match loginRole (r.body 192) with
    | .none => (s, .status 401)
    | role => (s, .login role (webMakeToken env.mac s.webKey s.regs.sysTick1s role))

/-- The command register of a name, all of them for every channel. -/
def commandAddr (cmd : List Char) : Option Nat :=
  if cmd = "clear_alarm".toList then some (mbadSetCmd + 30)
  else if cmd = "clear_event".toList then some (mbadSetCmd + 34)
  else if cmd = "ack_alarm".toList then some (mbadSetCmd + 46)
  else if cmd = "ack_event".toList then some (mbadSetCmd + 50)
  else none

/-- A register written; a refused write changes nothing. -/
def write (s : Server) (address : Nat) (value : UInt16) : Server :=
  { s with regs := (writeMemCb env.fetch s.regs address value).getD s.regs }

def apiCommand (s : Server) (r : Request) : Server × Reply :=
  match commandAddr (quotedText (r.body 96) "cmd".toList 32) with
  | some addr => (write env s addr 0x1234, .ok)
  | none => (s, .status 400)

/-- The request of a register write, read from its body. -/
def apiSetReg (s : Server) (r : Request) : Server × Reply :=
  let body := r.body 128
  let addr := (jsonNum body "addr".toList).toInt32.toInt
  let w := Modbus.Callback.apiSetReg env.fetch s.regs true addr
    (quotedText body "type".toList 8 = "u32".toList) (jsonNum body "val".toList)
  ({ s with regs := w.1 }, match w.2 with
    | .ok => .ok
    | .rejected => .rejected
    | .badAddress => .status 400
    | .forbidden => .status 403)

def apiSaveCfg (s : Server) : Server × Reply := (write env s (mbadSetCmd + 1) 0x1234, .ok)

def apiSnmp (s : Server) (r : Request) : Server × Reply :=
  let w := apiSnmpSet s.regs (r.body bodySize)
  ({ s with regs := w.1 }, w.2.elim .ok .refused)

def apiFw (s : Server) (r : Request) : Server × Reply :=
  let w := apiFwUpload r.volume r.contentLength (r.stream.map bytes) s.usrApp
  ({ s with usrApp := w.1 }, .upload w.2)

def apiFwApply (s : Server) (r : Request) : Server × Reply :=
  match fwCheckUsrApp r.volume s.usrApp with
  | .ok _ => ({ s with rebootFlag := 0x1234 }, .rebooting)
  | .error _ => (s, .status 400)

/-- What a view changes: the wave areas it refreshes, the reads it counts. -/
def refresh (s : Server) : View → Server
  | .waveform => { s with regs :=
      ((List.finRange 3).filter fun id => id.val < env.webNch).foldl copyModbusWaveData s.regs }
  | .general => { s with regs := readRegs s.regs (env.generalRegs s.regs) }
  | _ => s

/-- `apiRegs`: at most 256 registers from an address on, which wraps around at 16 bits. -/
def apiRegs (s : Server) (r : Request) : Server × Reply :=
  let addr := qparam r.query "addr".toList
  let n := qparam r.query "n".toList
  if addr < 0 ∨ n ≤ 0 ∨ 256 < n then (s, .status 400)
  else
    let as := (List.range n.toNat).map fun i => (addr.toNat + i) % 65536
    let read := as.foldl (fun (w : State × List UInt16) a =>
      let x := readMemCb w.1 a
      (x.1, w.2 ++ [x.2.getD 0])) (s.regs, [])
    ({ s with regs := read.1 }, .words read.2)

/-- The requests for administrators. -/
inductive Admin
  | command | setreg | savecfg | snmp | fwupload | fwstatus | fwapply
  deriving DecidableEq

def adminUri (r : Request) : Option Admin :=
  if r.uri = "/api/sv300/command".toList then some .command
  else if r.uri = "/api/setreg".toList then some .setreg
  else if r.uri = "/api/savecfg".toList then some .savecfg
  else if r.uri = "/api/snmp".toList ∧ r.method = "POST".toList then some .snmp
  else if r.uri = "/api/fwupload".toList then some .fwupload
  else if r.uri = "/api/fwstatus".toList then some .fwstatus
  else if r.uri = "/api/fwapply".toList then some .fwapply
  else none

def serveAdmin (s : Server) (r : Request) (a : Admin) : Server × Reply :=
  if webRole env s r ≠ .admin then (s, .status 403)
  else
    match a with
    | .command => apiCommand env s r
    | .setreg => apiSetReg env s r
    | .savecfg => apiSaveCfg env s
    | .snmp => apiSnmp s r
    | .fwupload => apiFw s r
    | .fwstatus => (s, .check (fwCheckUsrApp r.volume s.usrApp))
    | .fwapply => apiFwApply s r

def indexUris : List (List Char) :=
  ["/".toList, "index.html".toList, "/index.html".toList, "index.htm".toList, "/index.htm".toList]

def serveView (s : Server) (r : Request) : Server × Reply :=
  if webRole env s r = .none then (s, .status 401)
  else
    match views.lookup r.uri with
    | some v => (refresh env s v, .view v)
    | none =>
      if r.uri = "/api/snmp".toList then (s, .snmp (apiSnmpGet s.regs))
      else if "/api/regs".toList.isPrefixOf r.uri then apiRegs s r
      else (s, .status 404)

/-- `webRequestCallback`. -/
def webRequestCallback (s : Server) (r : Request) : Server × Reply :=
  if indexUris.contains r.uri then (s, .index)
  else if r.uri = "/api/login".toList then apiLogin env s r
  else if r.uri = "/api/logout".toList then (s, .logout)
  else if r.uri = "/api/me".toList then (s, .me (webRole env s r))
  else
    match adminUri r with
    | some a => serveAdmin env s r a
    | none =>
      if "/api/".toList.isPrefixOf r.uri then serveView env s r else (s, .file)

end Requests

/-- The register is counted up or refreshed by being read. -/
def Scratch (id : Channel) (off : Nat) : Prop :=
  id = 0 ∧ off = mBusRxCnt ∨ mbadWvReg ≤ off ∧ off < mbadWvReg + waveSize

/-- Nothing but such registers differs. -/
structure Untouched (s t : State) : Prop where
  meter : ∀ id off, ¬ Scratch id off → t.meter id off = s.meter id off
  ready : t.gMeterReady = s.gMeterReady
  snap : t.pMeterSnap = s.pMeterSnap
  waves : t.wvblk = s.wvblk
  simple : t.psmpMap = s.psmpMap
  utc : t.utc = s.utc
  clock : t.sysTick1s = s.sysTick1s
  queue : t.cmdQ = s.cmdQ

private theorem Untouched.refl (s : State) : Untouched s s :=
  ⟨fun _ _ _ => rfl, rfl, rfl, rfl, rfl, rfl, rfl, rfl⟩

theorem Untouched.trans {s t u : State} (h : Untouched s t) (k : Untouched t u) : Untouched s u :=
  ⟨fun id off free => (k.meter id off free).trans (h.meter id off free), k.ready.trans h.ready,
    k.snap.trans h.snap, k.waves.trans h.waves, k.simple.trans h.simple, k.utc.trans h.utc,
    k.clock.trans h.clock, k.queue.trans h.queue⟩

private theorem untouched_countRx (s : State) : Untouched s (countRx s) := by
  refine ⟨fun id off free => ?_, rfl, rfl, rfl, rfl, rfl, rfl, rfl⟩
  rw [countRx, setWord_meter, if_neg fun both => free (.inl both)]

private theorem untouched_wave (s : State) (id : Channel) :
    Untouched s (copyModbusWaveData s id) := by
  refine ⟨fun j off free => ?_, rfl, rfl, rfl, rfl, rfl, rfl, rfl⟩
  rw [wave_meter, if_neg fun both => free (.inr both.2)]

private theorem untouched_read (s : State) (address : Nat) :
    Untouched s (readMemCb s address).1 := by
  unfold readMemCb
  dsimp only
  cases decodeMeterAddress address with
  | none =>
    dsimp only
    split <;> exact untouched_countRx s
  | some place =>
    obtain ⟨id, offset⟩ := place
    dsimp only
    have counted := untouched_countRx s
    split_ifs
    · exact counted.trans (untouched_wave _ id)
    · exact counted
    · exact counted.trans (untouched_wave _ id)
    · exact counted

private theorem untouched_readRegs (s : State) (as : List Nat) : Untouched s (readRegs s as) := by
  induction as generalizing s with
  | nil => exact .refl s
  | cons a as ih => exact (untouched_read s a).trans (ih (readMemCb s a).1)

private theorem untouched_waves (s : State) (ids : List Channel) :
    Untouched s (ids.foldl copyModbusWaveData s) := by
  induction ids generalizing s with
  | nil => exact .refl s
  | cons id ids ih => exact (untouched_wave s id).trans (ih _)

/-- The server as it was, but for registers that reading changes. -/
structure Kept (s t : Server) : Prop where
  regs : Untouched s.regs t.regs
  webKey : t.webKey = s.webKey
  keyFile : t.keyFile = s.keyFile
  usrApp : t.usrApp = s.usrApp
  rebootFlag : t.rebootFlag = s.rebootFlag

private theorem Kept.refl (s : Server) : Kept s s := ⟨.refl s.regs, rfl, rfl, rfl, rfl⟩

section Kept

variable (env : Build) (s : Server) (r : Request)

private theorem kept_ite {s : Server} {c : Prop} [Decidable c] {x y : Server × Reply}
    (yes : Kept s x.1) (no : Kept s y.1) : Kept s (if c then x else y).1 := by
  split
  · exact yes
  · exact no

private theorem kept_regs {t : State} (untouched : Untouched s.regs t) :
    Kept s { s with regs := t } :=
  ⟨untouched, rfl, rfl, rfl, rfl⟩

private theorem kept_refresh (v : View) : Kept s (refresh env s v) := by
  cases v with
  | waveform => exact kept_regs s (untouched_waves _ _)
  | general => exact kept_regs s (untouched_readRegs _ _)
  | _ => exact .refl s

private theorem kept_apiRegs : Kept s (apiRegs s r).1 := by
  unfold apiRegs
  dsimp only
  split_ifs
  · exact .refl s
  · apply kept_regs
    generalize (List.range _).map _ = as
    have every (as : List Nat) (w : State × List UInt16) (held : Untouched s.regs w.1) :
        Untouched s.regs (as.foldl (fun (w : State × List UInt16) a =>
          ((readMemCb w.1 a).1, w.2 ++ [(readMemCb w.1 a).2.getD 0])) w).1 := by
      induction as generalizing w with
      | nil => exact held
      | cons a as ih => exact ih _ (held.trans (untouched_read w.1 a))
    exact every as (s.regs, []) (.refl s.regs)

private theorem kept_serveView : Kept s (serveView env s r).1 := by
  refine kept_ite (.refl s) ?_
  cases views.lookup r.uri with
  | some v => exact kept_refresh env s v
  | none => exact kept_ite (.refl s) (kept_ite (kept_apiRegs s r) (.refl s))

private theorem apiLogin_state : (apiLogin env s r).1 = s := by
  unfold apiLogin
  split_ifs
  · rfl
  · cases loginRole (r.body 192) <;> rfl

theorem request_cases :
    Kept s (webRequestCallback env s r).1 ∨
      webRole env s r = .admin ∧ ∃ a, adminUri r = some a ∧
        webRequestCallback env s r = serveAdmin env s r a := by
  have login : Kept s (apiLogin env s r).1 := by
    rw [apiLogin_state]
    exact .refl s
  unfold webRequestCallback
  by_cases index : indexUris.contains r.uri = true
  · exact .inl ((if_pos index).symm ▸ .refl s)
  rw [if_neg index]
  by_cases entry : r.uri = "/api/login".toList
  · exact .inl ((if_pos entry).symm ▸ login)
  rw [if_neg entry]
  by_cases leave : r.uri = "/api/logout".toList
  · exact .inl ((if_pos leave).symm ▸ .refl s)
  rw [if_neg leave]
  by_cases whoami : r.uri = "/api/me".toList
  · exact .inl ((if_pos whoami).symm ▸ .refl s)
  rw [if_neg whoami]
  cases named : adminUri r with
  | none => exact .inl (kept_ite (kept_serveView env s r) (.refl s))
  | some a =>
    by_cases admin : webRole env s r = .admin
    · exact .inr ⟨admin, a, rfl, rfl⟩
    · have refused : serveAdmin env s r a = (s, .status 403) := if_pos admin
      dsimp only
      rw [refused]
      exact .inl (.refl s)

/-- A request changes something only with an administrator's token. -/
theorem kept_of_not_admin (stranger : webRole env s r ≠ .admin) :
    Kept s (webRequestCallback env s r).1 :=
  (request_cases env s r).resolve_right fun both => stranger both.1

/-- What an administrator's request changes: registers, the image, or the wish to restart. -/
theorem serveAdmin_cases (admin : webRole env s r = .admin) (a : Admin) :
    (∃ regs, (serveAdmin env s r a).1 = { s with regs := regs }) ∨
      (a = .fwupload ∧ (serveAdmin env s r a).1 = { s with usrApp :=
        (apiFwUpload r.volume r.contentLength (r.stream.map bytes) s.usrApp).1 }) ∨
      a = .fwapply ∧ ∃ n, fwCheckUsrApp r.volume s.usrApp = .ok n ∧
        serveAdmin env s r a = ({ s with rebootFlag := 0x1234 }, .rebooting) := by
  rw [serveAdmin.eq_def, if_neg (not_not.mpr admin)]
  cases a with
  | command =>
    dsimp only
    rw [apiCommand]
    cases commandAddr (quotedText (r.body 96) "cmd".toList 32) with
    | some addr => exact .inl ⟨_, rfl⟩
    | none => exact .inl ⟨s.regs, rfl⟩
  | setreg => exact .inl ⟨_, rfl⟩
  | savecfg => exact .inl ⟨_, rfl⟩
  | snmp => exact .inl ⟨_, rfl⟩
  | fwupload => exact .inr (.inl ⟨rfl, rfl⟩)
  | fwstatus => exact .inl ⟨s.regs, rfl⟩
  | fwapply =>
    dsimp only
    rw [apiFwApply]
    cases check : fwCheckUsrApp r.volume s.usrApp with
    | ok n => exact .inr (.inr ⟨rfl, n, rfl, rfl⟩)
    | error fault => exact .inl ⟨s.regs, rfl⟩

/-- The replies that matter later: a token given out, a restart asked for. -/
def Reply.special : Reply → Bool
  | .login .. => true
  | .rebooting => true
  | _ => false

private theorem serveAdmin_special (a : Admin) (special : (serveAdmin env s r a).2.special = true) :
    (serveAdmin env s r a).2 = .rebooting ∧ ∃ n, fwCheckUsrApp r.volume s.usrApp = .ok n := by
  rw [serveAdmin.eq_def] at special ⊢
  split at special
  · cases special
  rename_i admin
  rw [if_neg admin]
  cases a with
  | command =>
    dsimp only at special
    rw [apiCommand] at special
    cases addr : commandAddr (quotedText (r.body 96) "cmd".toList 32) <;> rw [addr] at special <;>
      cases special
  | setreg =>
    dsimp only [apiSetReg] at special
    generalize (Modbus.Callback.apiSetReg _ _ _ _ _ _).2 = reply at special
    cases reply <;> cases special
  | savecfg => cases special
  | snmp =>
    dsimp only [apiSnmp] at special
    cases refused : (apiSnmpSet s.regs (r.body bodySize)).2 <;> rw [refused] at special <;>
      cases special
  | fwupload => cases special
  | fwstatus => cases special
  | fwapply =>
    dsimp only at special ⊢
    rw [apiFwApply] at special ⊢
    cases check : fwCheckUsrApp r.volume s.usrApp with
    | ok n => exact ⟨rfl, n, rfl⟩
    | error fault =>
      rw [check] at special
      cases special

private theorem serveView_special : (serveView env s r).2.special = false := by
  unfold serveView
  split
  · rfl
  cases views.lookup r.uri with
  | some v => rfl
  | none =>
    dsimp only
    split
    · rfl
    split
    · unfold apiRegs
      dsimp only
      split <;> rfl
    · rfl

theorem webRequestCallback_special
    (special : (webRequestCallback env s r).2.special = true) :
    r.uri = "/api/login".toList ∧ webRequestCallback env s r = apiLogin env s r ∨
      (webRequestCallback env s r).2 = .rebooting ∧
        ∃ n, fwCheckUsrApp r.volume s.usrApp = .ok n := by
  unfold webRequestCallback at special ⊢
  by_cases index : indexUris.contains r.uri = true
  · rw [if_pos index] at special
    cases special
  rw [if_neg index] at special ⊢
  by_cases entry : r.uri = "/api/login".toList
  · exact .inl ⟨entry, if_pos entry⟩
  rw [if_neg entry] at special ⊢
  by_cases leave : r.uri = "/api/logout".toList
  · rw [if_pos leave] at special
    cases special
  rw [if_neg leave] at special ⊢
  by_cases whoami : r.uri = "/api/me".toList
  · rw [if_pos whoami] at special
    cases special
  rw [if_neg whoami] at special ⊢
  cases named : adminUri r with
  | some a =>
    rw [named] at special
    exact .inr (serveAdmin_special env s r a special)
  | none =>
    rw [named] at special
    dsimp only at special
    split at special
    · rw [serveView_special] at special
      cases special
    · cases special

theorem login_reply {role : Role} {token : List Char}
    (answered : (webRequestCallback env s r).2 = .login role token) :
    r.uri = "/api/login".toList ∧ r.method = "POST".toList ∧ role ≠ .none ∧
      loginRole (r.body 192) = role ∧
      token = webMakeToken env.mac s.webKey s.regs.sysTick1s role := by
  have special : (webRequestCallback env s r).2.special = true := by
    rw [answered]
    rfl
  rcases webRequestCallback_special env s r special with ⟨entry, served⟩ | ⟨restart, -⟩
  · rw [served] at answered
    unfold apiLogin at answered
    split at answered
    · cases answered
    rename_i method
    cases given : loginRole (r.body 192) with
    | none =>
      rw [given] at answered
      cases answered
    | viewer | admin =>
      rw [given] at answered
      cases answered
      exact ⟨entry, not_not.mp method, by decide, rfl, rfl⟩
  · rw [restart] at answered
    cases answered

end Kept

end SV300.Web.Router
