import Lifecycle.Text.Packed
import Lifecycle.Text.Runs

/-!
How the letters of cursive scripts join their neighbours.
-/

namespace Lifecycle.Text

inductive Joining where
  | alone
  | both
  | left         -- only to the letter after it in a script from right to left
  | right        -- only to the letter before it there
  | transparent  -- a mark that joining passes over
deriving DecidableEq, Repr

def Joining.all : List Joining := [.alone, .both, .left, .right, .transparent]

/-- The places of kinds of joining in `Joining.all`, and their runs. -/
def joiningRuns : List Nat := Packed.numbers [
  "AyAEdRAiSEIAiGEbNABEBABECABECABEJAcAELAFBBABDEBBDBBBDBBFDEBNABBHDBBCEVAOBCEBDDAFBPDSBbGDBBCDJBBD",
  "BBBDBBCDCABDBEIABEGACECABEEDCAKBDACBBAQDBEBBDDFBEDBBJDBBBDBBBDBBCDBE3DBBLDDBPDCBEDBBBDCBDDCBGAbG",
  "ELAZBbBEJAJEBAYEEABEJABEDABEHAQDBBFDCBBDBBKDBBBDDEFACBBABBEABDBBBD0ADBBACBFDBBIEJBKDDABDBBCDCBGD",
  "BBPABEbZAbXEBABEBAEEIAEEBADEPACECA3EBAb0EBAEEGAGEBAUEEAYEFAbZECADE1AUECADEBALECAbZEBAEEIAEEDASEE",
  "AUEIAb0EBACEBABEGAGEKALEEA2EBAb3EBAMEDAbQEBADEBAbXEBABEDAFESAKEEA1EBAb0EBACEBAGEBAFEJANEEA0ECAbZ",
  "ECAEEFAHEBAUEEA1EBAcIEFADEGAcZEBACELAIEIAdCEBACEJALEIAcIECA1EBABEBABEBAbXEOABEFABECAFEbRAIEBAdGE",
  "EABEGABECACECAZECAEEDAQEEANEBACECAGEBAPEBAv5EDA9SEDA3ECA4EOASEOAbXEHAIEBACELAJEDAbHBBAYBdAAFECB",
  "bCEBBGAdQEDAEECAJEBAGEHAgXECACEDAbYEBABEJABEBACEIAGENAbQEcUAbQEBABEFABEBAFEBAbIEJAMECAbAEEACECAB",
  "EDAbYEBABECADEBABEDAb0EIACEFAeVEDABENABEHAEEBAGEBADECAgGEcBAwPEbUAc-LEEAeMEBAdAEbAArKEEAdLEEA9oS",
  "EEABEKAbAECAcQECAiQEBADEBAEEBAZECAFEEAQBbSCBAcREKASESANEBAbGEIAZELAbOEDAbQEBACEEACECAbHEBAcDEGAC",
  "ECACELADEBAIEBAbPEBAbTEBABEDACECAFECABEBAbKECAIELAhEEBACEBAEEDAtzOEeUAtOEbFA9YEeDAdAEBAeVEKAbuBE",
  "PAbIEIAeABFDBABDBABDCACCBDFBECBBFDBBDDBACDBEGBEDBAeQBBDBBBDDBDDBBCDBBBDCBBDIAQDEBCAkRCBBbBDBBBEM",
  "AbZEFAj3ECAVDBBCABBKAbKEGAbQBDDBBRABELBDDBA1BEDCBMEEAbKBBABBCDDABBBDCBCDBBCABBBDCBBAEDBBBCVAbBEB",
  "AbWEPAbJEBACECAKEDAbREEACECAHEOAbQEDAbEEFABEJAb3EBAMECAbUEJAKEEACEBAc5EDACEBABECAGEBACEb5Ac5EBAD",
  "ENAQECAbZECADEBAbFE0Ab1EHAMEBABEBABEBAOE5AbYEIACEDABEBAXEBAcUEGABEBAEECABECAhOEGAEECABECA1EbEAbT",
  "EIACEBABECAdKEBABEBACEGABEBAdFEBABEBACEEABEJAh5EJABECAiAECABEBAEEBAeQEIAEEBAbAEKAbIEGACEEAIEJABE",
  "GACEDAbOENABECAgGEBABEDABEBAgJEOABEBAcSEXABEHABECABEcLAbREVABEJAcAEDACEBABEBAk1ECALECAbUEIACEBAB",
  "EBAXEcWAfeQEBAGEZAlf4EMADEDAcoAEFAb1EHAbaYEBAb5EEAcREMAtfNECAetBEcQAqXEDAREIACEHA4EEAeUEDAb91EbX",
  "AEEbSAIEBAOEBAWEbdFAiAEiAAbQEHAlXESAbMEEAp2EEAh4ECAhTEBACEBAHECAFEJAoSEcSBbCEI"]

def joining (c : Char) : Joining := (Joining.all[classAt joiningRuns c.toNat]?).getD .alone

end Lifecycle.Text
