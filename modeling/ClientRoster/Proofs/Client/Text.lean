import ClientRoster.Client.Json
import ClientRoster.Proofs.Address.Text
import ClientRoster.Proofs.Client.Edit
import ClientRoster.Proofs.Json.Rendering
import ClientRoster.Proofs.Whois.Form

/-!
# `ClientRoster.Proofs.Client.Text` — the text of a record determines the record

A record is written without the slots that are vacant, and registration data without what is unknown, so much of what
tells two records apart is not there to be seen. No reader of records says that it can still be told. But documents are
read back from their texts, and a document gives under each name what stands there, or nothing. So a slot shows in the
text of its record by what stands under its name, and a vacant one by nothing standing there.

## Contents
- `Whois.plain_toDoc`, `Whois.read_toDoc`, `Whois.toDoc_injective`: the document of registration data.
- `Client.hostsDoc_injective`, `Slot.toDoc_injective`: the document of a slot.
- `Client.valuesOf_slotName`, `Client.toDoc_injective`: the document of a record.
- `Client.Lookalike`: records that a reader could take for each other.
- **`Client.render_eq_iff`**: no two records have one text.
-/

namespace ClientRoster

open Json

/-! ## Registration data -/

namespace Whois

theorem plain_toDoc (w : Whois) : w.toDoc.Plain :=
  plain_record (forall_mem_filterMap_value plain_text _)

theorem flaw?_toDoc (w : Whois) (levels : Nat) : w.toDoc.flaw? (.kept (levels + 1)) = none := by
  apply flaw?_record
  exact forall_mem_filterMap_value (P := fun d => d.flaw? (.kept levels) = none) (fun text => flaw?_text text _) _

/-- Registration data is read back from its document. -/
theorem read_toDoc (w : Whois) : layout.readInPlace .empty w.toDoc = .ok w := by
  obtain ⟨hcomplete, -, -, hspelled⟩ := (Doc.flaw?_kept_eq_none_iff w.toDoc 1).mp (w.flaw?_toDoc 0)
  exact (Layout.read_eq_ok_iff pairwise_apart).mpr ((reads_iff hcomplete hspelled).mpr (isWhois_toDoc w))

theorem toDoc_injective {w v : Whois} (h : w.toDoc = v.toDoc) : w = v := by
  have hread := read_toDoc w
  rw [h, read_toDoc v] at hread
  exact (Except.ok.inj hread).symm

end Whois

/-! ## Slots -/

namespace Client

theorem plain_hostsDoc (hosts : List String) : (hostsDoc hosts).Plain :=
  plain_list (List.forall_mem_map.mpr fun name _ => plain_text name)

theorem flaw?_hostsDoc (hosts : List String) (levels : Nat) : (hostsDoc hosts).flaw? (.kept (levels + 1)) = none :=
  flaw?_list (List.forall_mem_map.mpr fun name _ => flaw?_text name _)

theorem hostsDoc_injective {hosts others : List String} (h : hostsDoc hosts = hostsDoc others) : hosts = others := by
  have hread : (hostsDoc hosts).asTexts = .ok hosts := Doc.asTexts_eq_ok_iff.mpr rfl
  rw [Doc.asTexts_eq_ok_iff.mpr h] at hread
  exact (Except.ok.inj hread).symm

end Client

/-- A slot as a document. -/
def Slot.toDoc : Slot → Doc
  | registration entry => entry.toDoc
  | names hosts => Client.hostsDoc hosts

theorem Slot.plain_toDoc (slot : Slot) : slot.toDoc.Plain := by
  cases slot with
  | registration entry => exact entry.plain_toDoc
  | names hosts => exact Client.plain_hostsDoc hosts

theorem Slot.toDoc_injective {x y : Slot} (h : x.toDoc = y.toDoc) : x = y := by
  cases x with
  | registration w =>
    cases y with
    | registration v => exact congrArg registration (Whois.toDoc_injective h)
    | names others => cases h
  | names hosts =>
    cases y with
    | registration v => cases h
    | names others => exact congrArg names (Client.hostsDoc_injective h)

/-! ## Records -/

namespace Client

/-- The name under which the slot of a source is written. -/
def slotName : Source → String
  | .whois => "whois"
  | .arp => "arp"
  | .rdns => "rdns"
  | .dhcp => "dhcp"
  | .hostsFile => "hosts_file"
  | .persistent => ""

/-- The slots of a record under their names, the weakest source first. -/
def namedSlots (c : Client) : List (String × Option Slot) :=
  Source.byStrength.reverse.map fun s => (slotName s, c.slot? s)

/-- The entries of the document of a record. -/
def entries (c : Client) : Entries :=
  .ofList (("addr", .text c.addr.text) ::
    c.namedSlots.filterMap fun slot => slot.2.map fun value => (slot.1, value.toDoc))

/-- **A record is written slot by slot.** -/
theorem toDoc_eq (c : Client) : c.toDoc = .object c.entries := by
  -- whichever source a slot is of, its document is that of the slot
  have hslots : [("whois", c.whois.map Whois.toDoc), ("arp", c.arp.map hostsDoc), ("rdns", c.rdns.map hostsDoc),
      ("dhcp", c.dhcp.map hostsDoc), ("hosts_file", c.hostsFile.map hostsDoc)] =
        c.namedSlots.map fun slot => (slot.1, slot.2.map Slot.toDoc) := by
    simp [namedSlots, Source.byStrength, slotName, slot?, hosts?, Slot.toDoc, Function.comp_def]
  rw [toDoc, hslots, List.filterMap_map, entries, Doc.record]
  simp [Function.comp_def]

/-- The document of a record has a compact form. -/
theorem plain_toDoc (c : Client) : c.toDoc.Plain := by
  rw [toDoc_eq]
  have hslots := forall_mem_filterMap_value Slot.plain_toDoc c.namedSlots
  exact plain_record (List.forall_mem_cons.mpr ⟨plain_text _, hslots⟩)

/-- Where the address stands, no slot does. -/
theorem valuesOf_addr (c : Client) : c.entries.valuesOf "addr" = [.text c.addr.text] := by
  have hnone : (c.namedSlots.filter fun slot => decide (slot.1 = "addr")) = [] := by
    simp [namedSlots, Source.byStrength, slotName]
  show (Entries.cons (.plain "addr".toList) (.text c.addr.text) (.ofList _)).valuesOf "addr" = _
  rw [valuesOf_cons_of_eq, valuesOf_ofList_filterMap, hnone]
  rfl

/-- **Under the name of its source stands what is in a slot,** or nothing. -/
theorem valuesOf_slotName (c : Client) (s : Source) :
    c.entries.valuesOf (slotName s) = ((c.slot? s).map Slot.toDoc).toList := by
  have haddr : slotName s ≠ "addr" := by
    cases s <;> decide
  show (Entries.cons (.plain "addr".toList) (.text c.addr.text) (.ofList _)).valuesOf (slotName s) = _
  rw [valuesOf_cons_of_ne _ _ (plain_toList_ne haddr), valuesOf_ofList_filterMap]
  cases s with
  | persistent => simp [namedSlots, Source.byStrength, slotName, slot?_persistent]
  | _ => simp [namedSlots, Source.byStrength, slotName]

/-- **No two records have one document.** -/
theorem toDoc_injective {c d : Client} (h : c.toDoc = d.toDoc) : c = d := by
  rw [toDoc_eq, toDoc_eq] at h
  have hentries : c.entries = d.entries := Doc.object.inj h
  have haddr := valuesOf_addr c
  rw [hentries, valuesOf_addr d] at haddr
  apply ext_slots
  · exact (Address.text_injective (text_injective (List.cons.inj haddr).1)).symm
  · intro s
    have hslot := congrArg List.head? (valuesOf_slotName c s)
    rw [hentries, valuesOf_slotName d s, Option.head?_toList, Option.head?_toList,
      Option.map_inj_right fun _ _ => Slot.toDoc_injective] at hslot
    exact hslot.symm

/-- Two records that differ in what is easily lost when a record is written. -/
inductive Lookalike (c d : Client) : Prop
  /-- A slot is vacant in one of them, and occupied in the other, be it with nothing of use. -/
  | vacant {s : Source} (hc : c.slot? s = none) (hd : (d.slot? s).isSome)
  /-- A source reported that there is no host name, or it reported some. -/
  | unnamed {s : Source} {hosts : List String} (hc : c.hosts? s = some []) (hd : d.hosts? s = some hosts)
      (h : hosts ≠ [])
  /-- The registration data knows nothing, or it knows something, be it an empty text. -/
  | unknown {entry : Whois} (hc : c.whois = some .empty) (hd : d.whois = some entry) (h : entry ≠ .empty)
  /-- The same host names come from one source, or from another. -/
  | moved {s t : Source} {hosts : List String} (hc : c.hosts? s = some hosts) (hd : d.hosts? t = some hosts)
      (hnone : d.hosts? s = none)
  /-- The address has four octets, or it maps one that has. -/
  | mapped {inner : Ipv4} {ip : Ipv6} (h : ip.mapped? = some inner) (hc : c.addr = .v4 inner) (hd : d.addr = .v6 ip)

theorem Lookalike.ne {c d : Client} (h : c.Lookalike d) : c ≠ d := by
  rintro rfl
  cases h with
  | vacant hc hd =>
    rw [hc] at hd
    cases hd
  | unnamed hc hd h => exact h (Option.some.inj (hd.symm.trans hc))
  | unknown hc hd h => exact h (Option.some.inj (hd.symm.trans hc))
  | moved hc _ hnone =>
    rw [hc] at hnone
    cases hnone
  | mapped _ hc hd =>
    rw [hc] at hd
    cases hd

/-- **No two records have one text.** Whatever was done to them, and whatever the names and texts in them: records with
one text are equal, so records that differ in nothing but what is left out, in where host names stand, or in the kind
of their addresses have different texts. -/
theorem render_eq_iff (c d : Client) :
    (c.toDoc.render = d.toDoc.render ↔ c = d) ∧ (c.Lookalike d → c.toDoc.render ≠ d.toDoc.render) := by
  have hinj (h : c.toDoc.render = d.toDoc.render) : c = d :=
    toDoc_injective (render_injective c.plain_toDoc d.plain_toDoc h)
  refine ⟨⟨hinj, ?_⟩, ?_⟩
  · rintro rfl
    rfl
  · intro hlook h
    exact hlook.ne (hinj h)

theorem render_eq_iff_lookalikes :
    let c := vacant (.v4 ⟨192, 0, 2, 10⟩)
    let mapping : Ipv6 := ⟨[0, 0, 0, 0, 0, 0xffff, 0xc000, 0x20a], rfl⟩
    ((c.setHosts .arp [""]).toDoc.render = (c.setHosts .arp []).toDoc.render) ∧
      c.toDoc.render ≠ (c.setHosts .arp []).toDoc.render ∧
      (c.setHosts .arp []).toDoc.render ≠ (c.setHosts .arp ["", ""]).toDoc.render ∧
      c.toDoc.render ≠ (c.setWhois .empty).toDoc.render ∧
      (c.setWhois .empty).toDoc.render ≠ (c.setWhois (Whois.empty.withCity "")).toDoc.render ∧
      (c.setHosts .arp ["nas"]).toDoc.render ≠ (c.setHosts .rdns ["nas"]).toDoc.render ∧
      c.toDoc.render ≠ (vacant (.v6 mapping)).toDoc.render := by
  intro c mapping
  have hmapped : mapping.mapped? = some ⟨192, 0, 2, 10⟩ := rfl
  refine ⟨(render_eq_iff _ _).1.mpr rfl, ?_, ?_, ?_, ?_, ?_, ?_⟩
  · exact (render_eq_iff _ _).2 (.vacant (s := .arp) rfl rfl)
  · exact (render_eq_iff _ _).2 (.unnamed (s := .arp) rfl rfl (by decide))
  · exact (render_eq_iff _ _).2 (.vacant (s := .whois) rfl rfl)
  · exact (render_eq_iff _ _).2 (.unknown rfl rfl (by decide))
  · exact (render_eq_iff _ _).2 (.moved (s := .arp) (t := .rdns) rfl rfl rfl)
  · exact (render_eq_iff _ _).2 (.mapped hmapped rfl rfl)

end Client

end ClientRoster
