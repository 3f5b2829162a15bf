import PionTransport.Core.Run
import PionTransport.Vnet.Addr
import PionTransport.Vnet.Resolver

/-!
# What names resolve to

Names are meant to be the same if they differ in letter case only. A look-up lowers
the name that it is given, but names are registered as they are. So the nearest
router that knows a name answers with the latest address exactly if the latest
registration was in lower case.
-/

namespace PionTransport.Vnet.HostNames

open PionTransport.Core

variable (lib : Library)

/-- The registration that a call makes at a router, if it succeeds. -/
def registration (i : Nat) : Call → Option (String × IP)
  | .addHost j name ipAddr =>
    if j = i ∧ name ≠ "" then (lib.parseIP ipAddr).map fun ip => (name, ip) else none
  | .setParent _ _ => none

/-- The registrations at a router, in order; the first is made by `newResolver`. -/
def registrations (calls : List Call) (i : Nat) : List (String × IP) :=
  (Call.addHost i "localhost" "127.0.0.1" :: calls).filterMap (registration lib i)

/-- The latest registration of a name, whatever its letter case. -/
def latest (name : String) (entries : List (String × IP)) : Option (String × IP) :=
  (entries.filter fun entry => lib.toLower entry.1 = lib.toLower name).getLast?

/-- The latest registration of a name on the nearest router of a chain that has one. -/
def nearest (calls : List Call) (chain : List Nat) (name : String) : Option (String × IP) :=
  chain.findSome? fun i => latest lib name (registrations lib calls i)

/-- The resolvers from a router's up to the root. -/
inductive Chain (rs : Resolvers) : Nat → List Nat → Prop
  | root {i : Nat} : (rs i).parent = none → Chain rs i [i]
  | link {i parent : Nat} {chain : List Nat} : (rs i).parent = some parent →
      Chain rs parent chain → Chain rs i (i :: chain)

variable {lib} {rs rs' : Resolvers} {i fuel : Nat} {calls : List Call} {chain : List Nat}
  {name : String} {answers : List (Option ResolverError)}

/-- One call registers what it says. -/
theorem hosts_step {c : Call} {answer : Option ResolverError}
    (h : rs.step lib c = some (rs', answer)) (i : Nat) :
    (rs' i).hosts = insertAll (rs i).hosts (registration lib i c).toList := by
  cases c with
  | addHost j name ipAddr =>
    obtain ⟨rfl, -⟩ := Prod.mk.inj (Option.some.inj h)
    by_cases hi : i = j
    · subst hi
      rw [Function.update_self]
      unfold Resolver.addHost registration
      by_cases hname : name = ""
      · simp [hname, insertAll]
      · cases hparse : lib.parseIP ipAddr <;> simp [hname, hparse, insertAll]
    · rw [Function.update_of_ne hi]
      simp [registration, Ne.symm hi, insertAll]
  | setParent j parent =>
    obtain ⟨rfl, -⟩ := Prod.mk.inj (Option.some.inj h)
    by_cases hi : i = j
    · subst hi
      simp [registration, insertAll]
    · rw [Function.update_of_ne hi]
      simp [registration, insertAll]

/-- The names of a router are those that were registered. -/
theorem hosts_run (h : run (Resolvers.step lib) rs calls = some (rs', answers)) (i : Nat) :
    (rs' i).hosts = insertAll (rs i).hosts (calls.filterMap (registration lib i)) := by
  induction h using run_induct with
  | nil => simp [insertAll]
  | @cons _ c _ _ _ _ hstep _ ih =>
    rw [ih, hosts_step hstep, List.filterMap_cons]
    cases registration lib i c <;> rfl

theorem hosts_eq (hnew : rs i = newResolver lib)
    (h : run (Resolvers.step lib) rs calls = some (rs', answers)) :
    (rs' i).hosts = insertAll ∅ (registrations lib calls i) := by
  have hlocal : (newResolver lib).hosts =
      insertAll ∅ (registration lib i (.addHost i "localhost" "127.0.0.1")).toList := by
    cases hparse : lib.parseIP "127.0.0.1" <;>
      simp [newResolver, Resolver.addHost, registration, hparse, insertAll]
  rw [hosts_run h i, hnew, hlocal, registrations, List.filterMap_cons]
  cases registration lib i (.addHost i "localhost" "127.0.0.1") <;> rfl

/-- A look-up returns what the nearest resolver holds. -/
theorem lookUp_chain (hchain : Chain rs i chain) (hfuel : chain.length ≤ fuel) (name : String) :
    rs.lookUp fuel i name =
      some (match chain.findSome? fun j => (rs j).hosts.lookup name with
        | some ip => .ok ip
        | none => .error (hostNotFound name)) := by
  induction hchain generalizing fuel with
  | @root i hparent =>
    obtain ⟨fuel, rfl⟩ := Nat.exists_eq_succ_of_ne_zero (Nat.ne_zero_of_lt hfuel)
    cases hlookup : (rs i).hosts.lookup name <;>
      simp [Resolvers.lookUp, hlookup, hparent]
  | @link i _ _ hparent _ ih =>
    obtain ⟨fuel, rfl⟩ := Nat.exists_eq_succ_of_ne_zero (Nat.ne_zero_of_lt hfuel)
    cases hlookup : (rs i).hosts.lookup name with
    | some ip => simp [Resolvers.lookUp, hlookup]
    | none =>
      simp only [Resolvers.lookUp, hlookup, hparent, List.findSome?_cons]
      exact ih (Nat.le_of_succ_le_succ hfuel)

section Spelling

variable {entries : List (String × IP)} {m : String} {ip : IP}

/-- What a look-up finds of the registrations: the latest one in lower case. -/
def lowered (lib : Library) (name : String) (entries : List (String × IP)) :
    Option (String × IP) :=
  (entries.filter fun entry => entry.1 = lib.toLower name).getLast?

theorem mem_of_latest (h : latest lib name entries = some (m, ip)) :
    (m, ip) ∈ entries ∧ lib.toLower m = lib.toLower name := by
  have hmem := List.mem_filter.mp (List.mem_of_getLast? h)
  exact ⟨hmem.1, by simpa using hmem.2⟩

theorem mem_of_lowered (h : lowered lib name entries = some (m, ip)) :
    (m, ip) ∈ entries ∧ m = lib.toLower name := by
  have hmem := List.mem_filter.mp (List.mem_of_getLast? h)
  exact ⟨hmem.1, by simpa using hmem.2⟩

/-- A name in lower case is one of the spellings. -/
theorem filter_spellings (lib : Library) (name : String) (entries : List (String × IP)) :
    (entries.filter fun entry => entry.1 = lib.toLower name) =
      (entries.filter fun entry => lib.toLower entry.1 = lib.toLower name).filter
        fun entry => entry.1 = lib.toLower name := by
  rw [List.filter_filter]
  refine List.filter_congr fun entry _ => ?_
  by_cases he : entry.1 = lib.toLower name
  · simp [he, lib.toLower_toLower]
  · simp [he]

theorem lowered_of_latest_none (h : latest lib name entries = none) :
    lowered lib name entries = none := by
  rw [latest, List.getLast?_eq_none_iff] at h
  rw [lowered, filter_spellings, h]
  rfl

theorem lowered_of_latest (h : latest lib name entries = some (lib.toLower name, ip)) :
    lowered lib name entries = some (lib.toLower name, ip) := by
  obtain ⟨earlier, he⟩ := List.getLast?_eq_some_iff.mp h
  rw [lowered, filter_spellings, he]
  simp

end Spelling

/-- The address that a look-up finds on a chain, by the registrations. -/
theorem findSome?_hosts (hhosts : ∀ j, (rs j).hosts = insertAll ∅ (registrations lib calls j))
    (chain : List Nat) (name : String) :
    (chain.findSome? fun j => (rs j).hosts.lookup (lib.toLower name)) =
      (chain.findSome? fun j => lowered lib name (registrations lib calls j)).map Prod.snd := by
  induction chain with
  | nil => rfl
  | cons j chain ih =>
    have hlookup : (rs j).hosts.lookup (lib.toLower name) =
        (lowered lib name (registrations lib calls j)).map Prod.snd := by
      rw [hhosts, lookup_insertAll_eq]
      simp [lowered]
    rw [List.findSome?_cons, List.findSome?_cons, hlookup, ih]
    cases lowered lib name (registrations lib calls j) <;> rfl

/-- If the nearest registration is in lower case, it is the one that is found. -/
theorem lowered_of_nearest
    (hcase : ∀ entry ∈ nearest lib calls chain name, entry.1 = lib.toLower name) :
    (chain.findSome? fun j => lowered lib name (registrations lib calls j)) =
      nearest lib calls chain name := by
  induction chain with
  | nil => rfl
  | cons j chain ih =>
    unfold nearest at hcase ih ⊢
    rw [List.findSome?_cons] at hcase ⊢
    rw [List.findSome?_cons]
    cases hlatest : latest lib name (registrations lib calls j) with
    | none =>
      rw [hlatest] at hcase
      rw [lowered_of_latest_none hlatest]
      exact ih hcase
    | some entry =>
      obtain ⟨m, ip⟩ := entry
      rw [hlatest] at hcase
      obtain rfl : m = lib.toLower name := hcase (m, ip) rfl
      rw [lowered_of_latest hlatest]

/-- No address is registered for two spellings of the name. -/
def SpelledOnce (lib : Library) (calls : List Call) (chain : List Nat) (name : String) : Prop :=
  ∀ i ∈ chain, ∀ j ∈ chain, ∀ m m' ip, (m, ip) ∈ registrations lib calls i →
    (m', ip) ∈ registrations lib calls j → lib.toLower m = lib.toLower name →
    lib.toLower m' = lib.toLower name → m = m'

/-- Otherwise another one is found. -/
theorem nearest_of_lowered {entry : String × IP} {m : String}
    (honce : SpelledOnce lib calls chain name)
    (hnearest : nearest lib calls chain name = some entry)
    (hlowered : (chain.findSome? fun j => lowered lib name (registrations lib calls j)) =
      some (m, entry.2)) : entry.1 = lib.toLower name := by
  obtain ⟨i, hi, hlatest⟩ := List.exists_of_findSome?_eq_some hnearest
  obtain ⟨j, hj, hlow⟩ := List.exists_of_findSome?_eq_some hlowered
  obtain ⟨hmem, hspelling⟩ := mem_of_latest hlatest
  obtain ⟨hmem', rfl⟩ := mem_of_lowered hlow
  exact honce i hi j hj _ _ _ hmem hmem' hspelling (lib.toLower_toLower name)

/-- What a name is meant to resolve to. -/
def answer (lib : Library) (name : String) : Option (String × IP) → Except ResolveError IP
  | some entry => .ok entry.2
  | none => .error (.dns (hostNotFound (lib.toLower name)))

/-- After any calls a name resolves to the latest address on the nearest router that has it, in
whatever letter case, or is not found if no router has it, if that registration was made in lower
case; and only if, where no address was registered for two spellings of the name. -/
theorem name_resolves_if_lower_case (network name : String)
    (hnew : ∀ j, rs j = newResolver lib)
    (hrun : run (Resolvers.step lib) rs calls = some (rs', answers)) (hchain : Chain rs' i chain)
    (hfuel : chain.length ≤ fuel) (hnetwork : network ∈ ["", "ip", "ip4", "ip6"])
    (hname : name ≠ "") (hliteral : lib.parseIP name = none)
    (hlocal : lib.toLower name ≠ "localhost") :
    ((∀ entry ∈ nearest lib calls chain name, entry.1 = lib.toLower name) →
        resolveIPAddr lib rs' fuel (some i) network name =
          some (answer lib name (nearest lib calls chain name))) ∧
      (SpelledOnce lib calls chain name →
        resolveIPAddr lib rs' fuel (some i) network name =
          some (answer lib name (nearest lib calls chain name)) →
        ∀ entry ∈ nearest lib calls chain name, entry.1 = lib.toLower name) := by
  have hresolve : resolveIPAddr lib rs' fuel (some i) network name =
      some (answer lib name
        (chain.findSome? fun j => lowered lib name (registrations lib calls j))) := by
    have hhosts : ∀ j, (rs' j).hosts = insertAll ∅ (registrations lib calls j) := fun j =>
      hosts_eq (hnew j) hrun
    unfold resolveIPAddr
    rw [if_neg (not_not.mpr hnetwork), if_neg hname, hliteral]
    simp only [hlocal, if_false, lookUp_chain hchain hfuel, findSome?_hosts hhosts]
    cases chain.findSome? fun j => lowered lib name (registrations lib calls j) <;> rfl
  rw [hresolve]
  constructor
  · intro hcase
    rw [lowered_of_nearest hcase]
  · intro honce hright entry hentry
    rw [Option.mem_def] at hentry
    rw [hentry, Option.some.injEq] at hright
    cases hlowered : chain.findSome? fun j => lowered lib name (registrations lib calls j) with
    | none =>
      rw [hlowered] at hright
      cases hright
    | some found =>
      obtain ⟨m, ip⟩ := found
      rw [hlowered] at hright
      obtain rfl : ip = entry.2 := Except.ok.inj hright
      exact nearest_of_lowered honce hentry hlowered

/-- Addresses and letters as far as they are IPv4 addresses and ASCII letters. -/
def asciiLibrary : Library where
  parseIP := fun text => (parseIP text.toList).map fun ip => .v4 ip.a ip.b ip.c ip.d
  toLower := fun text => String.ofList (text.toList.map Char.toLower)
  toLower_toLower := by
    intro name
    have hchar : Char.toLower ∘ Char.toLower = Char.toLower := by
      funext c
      unfold Char.toLower
      simp
      grind
    rw [String.toList_ofList, List.map_map, hchar]

/-- A name is registered at the parent, at the child, and at the child again. -/
def threeHosts : List Call :=
  [.setParent 1 0, .addHost 0 "example.com" "10.0.0.1", .addHost 1 "Example.com" "10.0.0.2",
    .addHost 1 "example.com" "10.0.0.3"]

theorem latest_registration_resolves : ∃ rs' answers,
    run (Resolvers.step asciiLibrary) (fun _ => newResolver asciiLibrary) threeHosts =
        some (rs', answers) ∧
      resolveIPAddr asciiLibrary rs' 2 (some 1) "ip4" "EXAMPLE.com" =
        some (.ok (.v4 10 0 0 3)) := by
  refine exists_run (fun rs' _ => (rs' 1).parent = some 0 ∧ (rs' 0).parent = none)
    (by decide +kernel) ?_
  rintro rs' answers hrun ⟨hone, hzero⟩
  have hnearest : nearest asciiLibrary threeHosts [1, 0] "EXAMPLE.com" =
      some ("example.com", .v4 10 0 0 3) := by decide +kernel
  have hresolves := (name_resolves_if_lower_case "ip4" "EXAMPLE.com" (fun _ => rfl) hrun
    (.link hone (.root hzero)) (Nat.le_refl 2) (by decide) (by decide) (by decide +kernel)
    (by decide +kernel)).1
  rw [hnearest] at hresolves
  refine hresolves fun entry hentry => ?_
  obtain rfl := Option.some.inj hentry
  decide +kernel

/-- A name that is registered with a capital is not found. -/
theorem capital_is_not_found : ∃ rs' answers,
    run (Resolvers.step asciiLibrary) (fun _ => newResolver asciiLibrary)
        [.addHost 0 "Example.com" "10.0.0.2"] = some (rs', answers) ∧
      answers = [none] ∧ Chain rs' 0 [0] ∧
      nearest asciiLibrary [.addHost 0 "Example.com" "10.0.0.2"] [0] "Example.com" =
        some ("Example.com", .v4 10 0 0 2) ∧
      resolveIPAddr asciiLibrary rs' 1 (some 0) "ip" "Example.com" =
        some (.error (.dns (hostNotFound "example.com"))) := by
  refine ⟨_, _, rfl, ?_, .root rfl, ?_, ?_⟩
  · decide +kernel
  · decide +kernel
  · decide +kernel

end PionTransport.Vnet.HostNames
