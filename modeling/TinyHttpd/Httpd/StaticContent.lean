import TinyHttpd.Httpd.Route
import Mathlib.Data.List.TakeDrop

/-!
# What a static file arrives as

The number of bytes to send is the size `stat` reported for the path of the
request, as an `unsigned int`.  The file is opened after the main page has been
put behind a directory, so for a directory that is the size of another node.
-/

namespace Httpd

open CString

/-- A node of the file system: a directory with the size `stat` reports for it,
or a regular file with its execute bits. -/
inductive Node where
  | dir (size : Nat)
  | file (ixusr ixgrp ixoth : Bool) (contents : Bytes)
deriving DecidableEq, Repr

/-- What `stat` reports. -/
def Node.stat : Node → Stat
  | .dir size => ⟨true, true, true, true, size⟩
  | .file ixusr ixgrp ixoth contents => ⟨false, ixusr, ixgrp, ixoth, contents.length⟩

/-- The handler's calls act on a file system: `stat` reports its nodes, an `open`
that succeeds finds the contents of a file, and a `sendfile` that succeeds sends
as many bytes as it is told to, or the whole file when that is shorter. -/
structure ActsOn (env : Env) (fs : Bytes → Option Node) : Prop where
  stat : ∀ path, env.stat path = (fs path).map Node.stat
  openFile : ∀ {path contents}, env.openFile path = some contents →
    ∃ u g o, fs path = some (.file u g o contents)
  sendfile : ∀ {contents count sent}, env.sendfile contents count = some sent →
    sent = contents.take count

/-- The calls on a file system whose files can all be opened, with every other call
a success. -/
def Env.on (fs : Bytes → Option Node) : Env :=
  { Env.obliging with
    stat := fun path => (fs path).map Node.stat
    openFile := fun path =>
      match fs path with
      | some (.file _ _ _ contents) => some contents
      | _ => none }

theorem actsOn_on (fs : Bytes → Option Node) : ActsOn (Env.on fs) fs where
  stat _ := rfl
  openFile := by
    intro path contents h
    simp only [Env.on] at h
    split at h
    next u g o own hnode =>
        cases h
        exact ⟨u, g, o, hnode⟩
    next => cases h
  sendfile := by
    intro contents count sent h
    exact (Option.some.inj h).symm

/-! ## The bytes that reach the client -/

/-- The bytes a call sends. -/
def Call.transmits : Call → Bytes
  | .send _ data => data
  | .sendfile _ _ _ (some sent) => sent
  | _ => []

/-- The bytes a run sends. -/
def transmitted (calls : List Call) : Bytes := calls.flatMap Call.transmits

@[simp] theorem transmitted_nil : transmitted [] = [] := rfl

@[simp] theorem transmitted_cons (c : Call) (calls : List Call) :
    transmitted (c :: calls) = c.transmits ++ transmitted calls := rfl

@[simp] theorem transmitted_append (a b : List Call) :
    transmitted (a ++ b) = transmitted a ++ transmitted b :=
  List.flatMap_append

theorem OnlyRecv.transmitted {sock : Fd} {calls : List Call} (h : OnlyRecv sock calls) :
    transmitted calls = [] :=
  h.flatMap_eq_nil fun _ _ => rfl

/-- The response header of a static file. -/
def responseHeader : Bytes := httpVersion ++ bytes " 200" ++ bytes " OK" ++ bytes "\r\n\r\n"

theorem transmitted_echoHtml {env : Env} {sock : Fd} {path contents sent : Bytes} {size : Nat}
    (hopen : env.openFile path = some contents)
    (hsend : env.sendfile contents (size % 2 ^ 32) = some sent) :
    transmitted (echoHtml env sock path size) = responseHeader ++ sent := by
  rw [echoHtml]
  dsimp only
  rw [hopen]
  dsimp only
  rw [hsend]
  simp [Call.transmits, responseHeader]

/-- A static file is sent up to the size of the node `stat` looked at. -/
theorem transmitted_static {env : Env} {fs : Bytes → Option Node} (hfs : ActsOn env fs)
    {input path file contents : Bytes} {size : Nat}
    (hroute : route env (requestLine input).line = .static path file size)
    (hopen : env.openFile file = some contents)
    (hsend : (env.sendfile contents (size % 2 ^ 32)).isSome) :
    transmitted (acceptRequest env input) =
      responseHeader ++ contents.take (size % 2 ^ 32) := by
  obtain ⟨sent, hsent⟩ := Option.isSome_iff_exists.mp hsend
  rw [acceptRequest_eq, hroute, answer]
  simp [(requestLine_onlyRecv input).transmitted, Call.transmits,
    (clearHeader_onlyRecv .sockClient (requestLine input).rest).transmitted,
    transmitted_echoHtml hopen hsent, hfs.sendfile hsent]

/-! ## Where the size comes from -/

/-- What a request is routed to as a static file is a node of the file system,
served under its own path or, for a directory, under that of its main page. -/
theorem route_static {env : Env} {fs : Bytes → Option Node} (hfs : ActsOn env fs)
    {line path file : Bytes} {size : Nat} (h : route env line = .static path file size) :
    ∃ node, fs path = some node ∧ size = node.stat.size ∧ file = servedPath node.stat path := by
  rw [route] at h
  dsimp only at h
  split at h
  next => cases h
  next =>
      rw [hfs.stat] at h
      cases hnode : fs (buildPath (target (scanRequestLine line).1 (scanRequestLine line).2)) with
      | none =>
          rw [hnode] at h
          cases h
      | some node =>
          rw [hnode] at h
          dsimp only [Option.map_some] at h
          split at h
          next => cases h
          next =>
              cases h
              exact ⟨node, hnode, rfl, rfl⟩

/-- The size `stat` reported covers the file that is opened: a file below 4 GiB, or
the main page of a directory that is no longer than the directory itself, as an
`unsigned int`. -/
def SizeCovers (contents : Bytes) : Option Node → Prop
  | some (.file _ _ _ own) => own.length < 2 ^ 32
  | some (.dir size) => contents.length ≤ size % 2 ^ 32
  | none => False

instance (contents : Bytes) : (node : Option Node) → Decidable (SizeCovers contents node)
  | some (.file _ _ _ own) => inferInstanceAs (Decidable (own.length < 2 ^ 32))
  | some (.dir size) => inferInstanceAs (Decidable (contents.length ≤ size % 2 ^ 32))
  | none => inferInstanceAs (Decidable False)

/-- A static file is sent whole when the size covers it, and only then. -/
theorem static_sent_whole_iff {env : Env} {fs : Bytes → Option Node} (hfs : ActsOn env fs)
    {input path file contents : Bytes} {size : Nat}
    (hroute : route env (requestLine input).line = .static path file size)
    (hopen : env.openFile file = some contents)
    (hsend : (env.sendfile contents (size % 2 ^ 32)).isSome) :
    transmitted (acceptRequest env input) = responseHeader ++ contents ↔
      SizeCovers contents (fs path) := by
  rw [transmitted_static hfs hroute hopen hsend, List.append_right_inj, List.take_eq_self_iff]
  obtain ⟨node, hnode, rfl, rfl⟩ := route_static hfs hroute
  rw [hnode]
  cases node with
  | dir size => exact Iff.rfl
  | file u g o own =>
      obtain ⟨u', g', o', hown⟩ := hfs.openFile hopen
      have hfile : servedPath (Node.file u g o own).stat path = path := rfl
      have heq : own = contents := by
        rw [hfile, hnode] at hown
        cases hown
        rfl
      subst heq
      have hsize : (Node.file u g o own).stat.size = own.length := rfl
      rw [hsize, SizeCovers]
      constructor
      · intro h
        exact lt_of_le_of_lt h (Nat.mod_lt _ (by decide))
      · intro h
        rw [Nat.mod_eq_of_lt h]

/-- A document root of that size, with a main page. -/
def site (size : Nat) (page : Bytes) (path : Bytes) : Option Node :=
  if path = bytes "htdocs/" then some (.dir size)
  else if path = bytes "htdocs//index.html" then some (.file false false false page)
  else none

theorem route_site (size : Nat) (page : Bytes) :
    route (Env.on (site size page)) (requestLine (bytes "GET / HTTP/1.0\n\n")).line =
      .static (bytes "htdocs/") (bytes "htdocs//index.html") size :=
  rfl

theorem static_sent_whole_short :
    transmitted (acceptRequest (Env.on (site 4096 (bytes "hello")))
      (bytes "GET / HTTP/1.0\n\n")) = responseHeader ++ bytes "hello" :=
  (static_sent_whole_iff (actsOn_on _) (route_site 4096 (bytes "hello")) rfl rfl).mpr (by decide)

/-- A main page of 4097 bytes in a directory of 4096 is cut. -/
theorem mainPage_cut :
    let page : Bytes := List.replicate 4097 97
    let input := bytes "GET / HTTP/1.0\n\n"
    route (Env.on (site 4096 page)) (requestLine input).line =
        .static (bytes "htdocs/") (bytes "htdocs//index.html") 4096 ∧
      (Env.on (site 4096 page)).openFile (bytes "htdocs//index.html") = some page ∧
      ((Env.on (site 4096 page)).sendfile page 4096).isSome ∧
      transmitted (acceptRequest (Env.on (site 4096 page)) input) ≠ responseHeader ++ page := by
  intro page input
  refine ⟨route_site 4096 page, rfl, rfl, fun h => ?_⟩
  rw [transmitted_static (actsOn_on _) (route_site 4096 page) rfl rfl, List.append_right_inj,
    List.take_eq_self_iff, List.length_replicate] at h
  exact absurd h (by decide)

end Httpd
