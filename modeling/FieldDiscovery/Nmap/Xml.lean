import FieldDiscovery.Lib.Datetime
import FieldDiscovery.Lib.Number
import FieldDiscovery.Errors

/-!
# The streaming parser of nmap XML

`nmap_xml.py`. The XML parser itself is the standard library's pull parser; it is a parameter
(`PullParser`) that turns chunks of bytes into events. The guard over the bytes, the limits and
everything read off the elements are modelled.

An element is modelled when it ends, with its attributes, its text and its children. The code
clears a `host` and a script group once it has been read; nothing later reads them.
-/

namespace FieldDiscovery.Nmap

open Py

/-! ## Elements -/

/-- An XML element. -/
structure Element where
  tag : Str
  attrib : List (Str × Str)
  text : Option Str
  children : List Element

namespace Element

/-- `element.get(key)` -/
def get (e : Element) (key : String) : Option Str :=
  (e.attrib.find? fun a => a.1 = str key).map Prod.snd

/-- `element.findall(tag)` -/
def findall (e : Element) (tag : String) : List Element :=
  e.children.filter fun c => c.tag = str tag

/-- `element.findall("outer/inner")` -/
def findall₂ (e : Element) (outer inner : String) : List Element :=
  (e.findall outer).flatMap fun c => c.findall inner

/-- `element.find(tag)` -/
def find (e : Element) (tag : String) : Option Element := (e.findall tag).head?

end Element

/-- What the pull parser reports. -/
inductive XmlEvent where
  | start (tag : Str) (attrib : List (Str × Str))
  | finish (element : Element)
  /-- `read_events` raises `ET.ParseError`. -/
  | error (detail : Str)

/-- `ET.XMLPullParser(events=("start", "end"))` -/
structure PullParser where
  State : Type
  initial : State
  /-- `parser.feed(chunk)` and the events it makes available. -/
  feed : State → List Byte → Except Exc (State × List XmlEvent)
  /-- `parser.close()` -/
  close : State → Except Exc Unit

/-! ## Limits and records -/

/-- `ParserLimits` -/
structure ParserLimits where
  maxBytes : Nat := 256 * 1024 * 1024
  maxDepth : Nat := 64
  maxHosts : Nat := 100000
  maxPortsPerHost : Nat := 65536
  maxScriptsPerHost : Nat := 4096
  maxText : Nat := 1048576
  chunkSize : Nat := 64 * 1024
  positive : 0 < min maxBytes (min maxDepth (min maxHosts (min maxPortsPerHost
    (min maxScriptsPerHost (min maxText chunkSize))))) := by decide

structure NmapAddress where
  address : Str
  addressType : Str
  vendor : Option Str

structure NmapHostname where
  name : Str
  hostnameType : Option Str

structure NmapScript where
  scriptId : Str
  output : Str
  phase : Str

structure NmapService where
  name : Option Str
  product : Option Str
  version : Option Str
  extraInfo : Option Str
  method : Option Str
  confidence : Option Int
  tunnel : Option Str
  cpes : List Str

structure NmapPort where
  protocol : Str
  port : Nat
  state : Option Str
  reason : Option Str
  reasonTtl : Option Int
  service : Option NmapService
  scripts : List NmapScript

structure NmapOsClass where
  deviceType : Option Str
  vendor : Option Str
  osFamily : Option Str
  osGeneration : Option Str
  accuracy : Option Int
  cpes : List Str

structure NmapOsMatch where
  name : Str
  accuracy : Option Int
  line : Option Int
  classes : List NmapOsClass

structure NmapHost where
  startedAt : Option Datetime
  endedAt : Option Datetime
  state : Option Str
  stateReason : Option Str
  addresses : List NmapAddress
  hostnames : List NmapHostname
  osMatches : List NmapOsMatch
  ports : List NmapPort
  scripts : List NmapScript

structure NmapScanInfo where
  scanType : Option Str
  protocol : Option Str
  numServices : Option Int
  services : Option Str

structure NmapScan where
  scanner : Option Str
  args : Option Str
  version : Option Str
  xmlOutputVersion : Option Str
  startedAt : Option Datetime
  finishedAt : Option Datetime
  /-- The numeral; nothing reads its value. -/
  elapsedSeconds : Option Str
  summary : Option Str
  exitStatus : Option Str
  scanInfo : List NmapScanInfo
  scripts : List NmapScript
  hosts : List NmapHost

/-! ## Values -/

/-- `raise NmapXmlError(message)` -/
def xmlError {α : Type} (message : Str) : Except Exc α := .error (.nmapXml message)

/-- `_bounded` -/
def bounded (limits : ParserLimits) (value : Option Str) (field : String) :
    Except Exc (Option Str) :=
  match value with
  | none => .ok none
  | some v =>
    if limits.maxText < v.length then
      xmlError (str field ++ str " exceeds the configured text limit")
    else if cp '\x00' ∈ v then xmlError (str field ++ str " contains a NUL byte")
    else .ok (some v)

/-- `_integer` -/
def integer (rt : Runtime) (value : Option Str) (field : String) : Except Exc (Option Int) :=
  match value with
  | none => .ok none
  | some v =>
    if v = [] then .ok none
    else
      match parseInt rt v with
      | some n => .ok (some n)
      | none => xmlError (str field ++ str " must be an integer")

/-- `_floating` -/
def floating (rt : Runtime) (value : Option Str) (field : String) : Except Exc (Option Str) :=
  match value with
  | none => .ok none
  | some v =>
    if v = [] then .ok none
    else if isFloat rt v then .ok (some v)
    else xmlError (str field ++ str " must be a number")

/-- `_timestamp` -/
def timestamp (rt : Runtime) (value : Option Str) (field : String) :
    Except Exc (Option Datetime) := do
  match ← integer rt value field with
  | none => .ok none
  | some epoch =>
    match Datetime.ofEpochMicros (epoch * 1000000) with
    | some d => .ok (some d)
    | none => xmlError (str field ++ str " is outside the supported timestamp range")

/-- An attribute of an element that may be missing. -/
def attributeOf (e : Option Element) (key : String) : Option Str := e.bind fun e => e.get key

/-! ## Elements of a host -/

section

variable (rt : Runtime) (limits : ParserLimits)

/-- `_script` -/
def script (phase : String) (e : Element) : Except Exc NmapScript := do
  let scriptId ← bounded limits (e.get "id") "NSE script id"
  let scriptId := scriptId.getD []
  if scriptId = [] then xmlError (str "NSE script is missing its id")
  else
    let output ← bounded limits (some ((e.get "output").getD [])) "NSE script output"
    match output with
    | none => .error .assertion
    | some output => .ok ⟨scriptId, output, str phase⟩

/-- The texts of the `cpe` children. -/
def cpes (field : String) (e : Element) : Except Exc (List Str) := do
  let values ← (e.findall "cpe").mapM fun c => bounded limits c.text field
  .ok values.reduceOption

/-- `_service` -/
def service (e : Element) : Except Exc NmapService := do
  let name ← bounded limits (e.get "name") "service name"
  let product ← bounded limits (e.get "product") "service product"
  let version ← bounded limits (e.get "version") "service version"
  let extraInfo ← bounded limits (e.get "extrainfo") "service extra info"
  let method ← bounded limits (e.get "method") "service method"
  let confidence ← integer rt (e.get "conf") "service confidence"
  let tunnel ← bounded limits (e.get "tunnel") "service tunnel"
  let cpes ← cpes limits "service CPE" e
  .ok { name, product, version, extraInfo, method, confidence, tunnel, cpes }

/-- One `address` of a host. -/
def address (e : Element) : Except Exc NmapAddress := do
  let addr ← bounded limits (e.get "addr") "host address"
  let addrType ← bounded limits (e.get "addrtype") "host address type"
  let vendor ← bounded limits (e.get "vendor") "host address vendor"
  .ok ⟨addr.getD [], addrType.getD [], vendor⟩

/-- One `hostname` of a host. -/
def hostname (e : Element) : Except Exc NmapHostname := do
  let name ← bounded limits (e.get "name") "hostname"
  let hostnameType ← bounded limits (e.get "type") "hostname type"
  .ok ⟨name.getD [], hostnameType⟩

/-- One `osclass` of an OS match. -/
def osClass (e : Element) : Except Exc NmapOsClass := do
  let deviceType ← bounded limits (e.get "type") "OS class type"
  let vendor ← bounded limits (e.get "vendor") "OS class vendor"
  let osFamily ← bounded limits (e.get "osfamily") "OS family"
  let osGeneration ← bounded limits (e.get "osgen") "OS generation"
  let accuracy ← integer rt (e.get "accuracy") "OS class accuracy"
  let cpes ← cpes limits "OS CPE" e
  .ok { deviceType, vendor, osFamily, osGeneration, accuracy, cpes }

/-- One `osmatch` of a host. -/
def osMatch (e : Element) : Except Exc NmapOsMatch := do
  let name ← bounded limits (e.get "name") "OS match name"
  let name := name.getD []
  if name = [] then xmlError (str "OS match is missing its name")
  else
    let classes ← (e.findall "osclass").mapM (osClass rt limits)
    let accuracy ← integer rt (e.get "accuracy") "OS match accuracy"
    let line ← integer rt (e.get "line") "OS match line"
    .ok { name, accuracy, line, classes }

/-- One `port` of a host. -/
def port (e : Element) : Except Exc NmapPort := do
  let protocol ← bounded limits (e.get "protocol") "port protocol"
  let protocol := protocol.getD []
  let number ← integer rt (e.get "portid") "port number"
  let invalid := xmlError (str "port requires a valid protocol and port number")
  match number with
  | none => invalid
  | some n =>
    if protocol = [] ∨ ¬ (0 ≤ n ∧ n ≤ 65535) then invalid
    else
      let scripts ← (e.findall "script").mapM (script limits "port")
      let state ← bounded limits (attributeOf (e.find "state") "state") "port state"
      let reason ← bounded limits (attributeOf (e.find "state") "reason") "port state reason"
      let reasonTtl ← integer rt (attributeOf (e.find "state") "reason_ttl") "port reason TTL"
      let service ← (e.find "service").mapM (service rt limits)
      .ok { protocol, port := n.toNat, state, reason, reasonTtl, service, scripts }

/-- The loop over the ports of a host, with the number of their scripts. -/
def ports (e : Element) : Except Exc (List NmapPort × Nat) :=
  (e.findall₂ "ports" "port").foldlM (fun acc item => do
    if limits.maxPortsPerHost ≤ acc.1.length then
      xmlError (str "host exceeds the configured port limit")
    else
      let p ← port rt limits item
      .ok (acc.1 ++ [p], acc.2 + p.scripts.length)) ([], 0)

/-- `_host` -/
def host (e : Element) : Except Exc NmapHost := do
  let status := e.find "status"
  let addresses ← (e.findall "address").mapM (address limits)
  if addresses.any fun a => a.address = [] || a.addressType = [] then
    xmlError (str "host address is missing addr or addrtype")
  else
    let hostnames ← (e.findall₂ "hostnames" "hostname").mapM (hostname limits)
    if hostnames.any fun h => h.name = [] then
      xmlError (str "hostname entry is missing its name")
    else
      let osMatches ← (e.findall₂ "os" "osmatch").mapM (osMatch rt limits)
      let (ports, scriptCount) ← ports rt limits e
      let scripts ← (e.findall₂ "hostscript" "script").mapM (script limits "host")
      if limits.maxScriptsPerHost < scriptCount + scripts.length then
        xmlError (str "host exceeds the configured NSE script limit")
      else
        let startedAt ← timestamp rt (e.get "starttime") "host start time"
        let endedAt ← timestamp rt (e.get "endtime") "host end time"
        let state ← bounded limits (attributeOf status "state") "host state"
        let stateReason ← bounded limits (attributeOf status "reason") "host state reason"
        .ok { startedAt, endedAt, state, stateReason, addresses, hostnames, osMatches, ports,
              scripts }

/-! ## The stream -/

/-- The UTF-8 bytes of an ASCII literal. -/
def bytes (s : String) : List Byte := s.toList.map fun c => Fin.ofNat _ c.toNat

/-- `chunk.upper()` -/
def upperBytes (s : List Byte) : List Byte :=
  s.map fun b => if 97 ≤ b.val ∧ b.val ≤ 122 then Fin.ofNat _ (b.val - 32) else b

/-- The rest of `s` from the first occurrence of a word on. -/
def fromFirst (word : List Byte) : List Byte → Option (List Byte)
  | [] => if word = [] then some [] else none
  | b :: s => if word <+: b :: s then some (b :: s) else fromFirst word s

/-- `doctype_marker` -/
def doctypeMarker : List Byte := bytes "<!DOCTYPE"

/-- `canonical_doctype` -/
def canonicalDoctype : List Byte := bytes "<!DOCTYPE NMAPRUN>"

/-- The loop over the declarations of a window: `pending_doctype` after it. -/
def scanDoctypes : Nat → List Byte → Except Exc (List Byte)
  | 0, _ => .ok []
  | fuel + 1, window =>
    match fromFirst doctypeMarker window with
    | none => .ok []
    | some rest =>
      let prohibited := xmlError (str "external or noncanonical DTD is prohibited")
      let close : Byte := Fin.ofNat _ 62
      if close ∈ rest then
        let declaration := rest.takeWhile (· != close) ++ [close]
        if declaration ≠ canonicalDoctype then prohibited
        else scanDoctypes fuel (rest.drop declaration.length)
      else if rest <+: canonicalDoctype then .ok rest
      else prohibited

/-- What the guard over the bytes remembers. -/
structure GuardState where
  total : Nat := 0
  declarationTail : List Byte := []
  pendingDoctype : List Byte := []

/-- The checks on one chunk before it is fed to the parser. -/
def guardChunk (g : GuardState) (chunk : List Byte) : Except Exc GuardState := do
  let total := g.total + chunk.length
  let window := (if g.pendingDoctype = [] then g.declarationTail else g.pendingDoctype) ++
    upperBytes chunk
  if limits.maxBytes < total then xmlError (str "nmap XML exceeds the configured byte limit")
  else if total = chunk.length ∧ ([Fin.ofNat _ 0xFF, Fin.ofNat _ 0xFE] <+: chunk ∨
      [Fin.ofNat _ 0xFE, Fin.ofNat _ 0xFF] <+: chunk ∨ Fin.ofNat _ 0 ∈ chunk) then
    xmlError (str "nmap XML must use an ASCII-compatible encoding")
  else if bytes "<!ENTITY" <:+: window then
    xmlError (str "entity declarations are prohibited")
  else
    let pending ← scanDoctypes (window.length + 1) window
    .ok { total
          declarationTail :=
            if pending = [] then window.drop (window.length - (doctypeMarker.length - 1)) else []
          pendingDoctype := pending }

/-- What the loop over the events has collected. -/
structure ScanState where
  depth : Int := 0
  rootAttributes : Option (List (Str × Str)) := none
  hosts : List NmapHost := []
  scanInfo : List NmapScanInfo := []
  scanScripts : List NmapScript := []
  finished : Option Element := none

/-- One `scaninfo` element. -/
def scanInfoOf (e : Element) : Except Exc NmapScanInfo := do
  let scanType ← bounded limits (e.get "type") "scan type"
  let protocol ← bounded limits (e.get "protocol") "scan protocol"
  let numServices ← integer rt (e.get "numservices") "scan service count"
  let services ← bounded limits (e.get "services") "scan services"
  .ok { scanType, protocol, numServices, services }

/-- The branch of an `end` event. -/
def finishElement (s : ScanState) (e : Element) : Except Exc ScanState :=
  if e.tag = str "scaninfo" then do
    let info ← scanInfoOf rt limits e
    .ok { s with scanInfo := s.scanInfo ++ [info] }
  else if e.tag = str "host" then
    if limits.maxHosts ≤ s.hosts.length then
      xmlError (str "scan exceeds the configured host limit")
    else do
      let h ← host rt limits e
      .ok { s with hosts := s.hosts ++ [h] }
  else if e.tag = str "finished" then .ok { s with finished := some e }
  else if e.tag = str "prescript" ∨ e.tag = str "postscript" then do
    let phase := if e.tag = str "prescript" then "pre" else "post"
    let scripts ← (e.findall "script").mapM (script limits phase)
    .ok { s with scanScripts := s.scanScripts ++ scripts }
  else .ok s

/-- One event. -/
def handleEvent (s : ScanState) : XmlEvent → Except Exc ScanState
  | .start tag attrib =>
    let s := { s with depth := s.depth + 1 }
    if (limits.maxDepth : Int) < s.depth then
      xmlError (str "nmap XML exceeds the configured nesting limit")
    else if s.rootAttributes.isSome then .ok s
    else if tag ≠ str "nmaprun" then xmlError (str "document root must be nmaprun")
    else .ok { s with rootAttributes := some attrib }
  | .finish e => do
    let s ← finishElement rt limits s e
    .ok { s with depth := s.depth - 1 }
  | .error detail => .error (.xmlParse detail)

/-- The loop over the chunks, and the checks after it. A chunk that cannot be read raises. -/
def readChunks (p : PullParser) (g : GuardState) (state : p.State) (s : ScanState) :
    List (Except Exc (List Byte)) → Except Exc ScanState
  | .error e :: _ => .error e
  | .ok (b :: chunk) :: chunks => do
    let g ← guardChunk limits g (b :: chunk)
    let (state, events) ← p.feed state (b :: chunk)
    let s ← events.foldlM (handleEvent rt limits) s
    readChunks p g state s chunks
  | _ =>
    if g.total = 0 then xmlError (str "nmap XML document is empty")
    else if g.pendingDoctype ≠ [] then
      xmlError (str "incomplete DTD declaration is prohibited")
    else do
      p.close state
      .ok s

/-- `except ET.ParseError as exc: raise NmapXmlError(...) from exc` -/
def wrapParseError {α : Type} : Except Exc α → Except Exc α
  | .error (.xmlParse detail) => xmlError (str "malformed nmap XML: " ++ detail)
  | result => result

/-- The scan of a document that has been read. -/
def scanOf (s : ScanState) : Except Exc NmapScan :=
  match s.rootAttributes with
  | none => .error .assertion
  | some attrib => do
    let root : Option Element := some ⟨[], attrib, none, []⟩
    let scanner ← bounded limits (attributeOf root "scanner") "scanner"
    let args ← bounded limits (attributeOf root "args") "scan arguments"
    let version ← bounded limits (attributeOf root "version") "nmap version"
    let xmlOutputVersion ←
      bounded limits (attributeOf root "xmloutputversion") "XML output version"
    let startedAt ← timestamp rt (attributeOf root "start") "scan start time"
    let finishedAt ← timestamp rt (attributeOf s.finished "time") "scan finish time"
    let elapsedSeconds ← floating rt (attributeOf s.finished "elapsed") "scan elapsed time"
    let summary ← bounded limits (attributeOf s.finished "summary") "scan summary"
    let exitStatus ← bounded limits (attributeOf s.finished "exit") "scan exit status"
    .ok { scanner, args, version, xmlOutputVersion, startedAt, finishedAt, elapsedSeconds, summary,
          exitStatus, scanInfo := s.scanInfo, scripts := s.scanScripts, hosts := s.hosts }

/-- `_parse_stream` on what `stream.read(limits.chunk_size)` returns time after time. -/
def parseStream (p : PullParser) (chunks : List (Except Exc (List Byte))) :
    Except Exc NmapScan := do
  let s ← wrapParseError (readChunks rt limits p {} p.initial {} chunks)
  scanOf rt limits s

end

end FieldDiscovery.Nmap
