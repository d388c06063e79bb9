import Lifecycle.Text.Packed
import Lifecycle.Text.Runs

/-!
Combining marks, and the classes by which marks on one character are ordered: 0 for a character that
begins anew, and a smaller class closer to it.
-/

namespace Lifecycle.Text

/-- The gaps and runs of the marks that domains may have. -/
def markRuns : List Nat := Packed.numbers [
  "yAcACBDJBbAiTHiHbNBBBCBCBBcILbQVQBdFHCGCCBEbDB41c1Lb0JJBYEBJBDBFbLDb1JbKYBbBbWDBSBHKC3DbYBBHCCCD",
  "JBKC0BCDbYBBFECCDDB4CDBLDbYBBIBDBDUCWGBDbYBBHCCCDHDKC4Bb1FDDBEJBbIFbXBBHBDBEHCLC3DbYBBHBDBEHCLCP",
  "BMEbXCBHBDBEJBKC3DcGBEGBBBISCb3BCHMIdCBCJLHcJC1BBBBBECbRCBBFHBDBCFGBEBEBEBEBEBMBDJBdEUXEEDBDCHDE",
  "NMBBKEv5D9SE2D3C4CcC4JBfHCbCBdWMEMg1FbZKB3CBbQbOCMUFbPRbGJMD4NbYObQUeYDBVEBGBCDgGcAwQbBc-4DeNBdA",
  "bArKGdJC9oUEBKbACcQCiQBDBEBXFEBcTCbSS0SNBbGIZNbMEbPObEBcDOMBICbNDbSBBDCCFCBBbJFFChMIBCtzQByBQ+NB",
  "hCBeVFbuGDBCFEbIDEBfFCr3EcBFj3CcNGcGLbREd0DbVPbJBCCKEbNLHBb3DbEOQCbMBMDbQOIEBCc2MGBCBe3MVEbXCBHC",
  "CCDJBKCCHDFcDJBBCBBEBFBBOCcSSXBcRUhLHCJ1CcSRdKNdFPiAPhVGBCCEBBBCeNHCHDB2KbIHBEIBJLbOQgGIgHIBIcSW",
  "BOd0GDBBCBHBBcCFBCBFk1EJCBBbQHDFXBfhFBGPlgIScoAFb1HbaYBBbXHEcRBLCtfLCetBbOCXq4FDGIICH4EeUDb91bXE",
  "bSIBOBWFBPbkQHBRCHBCBFdEBfAHlXBb3Ep2Eh4ChTBCBHCFBo0HdNH"]

/-- The classes of combining characters and their runs. -/
def combiningRuns : List Nat := Packed.numbers [
  "AyAhGVhIBg2EhIBgYBg2FgKCg2EgKCg2LBFg2EhGIhQBhGBg2DhGDg2CABhGDg2EhGBhIBg2ChGBhJBhKChJBhKChJBhGNA",
  "iThGFAiJg2BhGEg2BhGDg4Bg2BhGGg2GhGCg2BhGCg4BhEBhGBKBLBMBNBOBPBQBRBSBTCUBVBWBABXBABYBZBABhGBg2BAB",
  "SBAcIhGI4B5BbABAbQ1B2B3B4B5BbABbBBbCBhGCg2ChGFg2BhGCg2BAQbDBAdFhGHAChGEg2BhGBAChGCABg2BhGCg2BAbD",
  "bEBA4hGBg2BhGCg2BhGCg2DhGBg2ChGBg2BhGDg2BhGBg2BhGBg2BhGBg2BhGCAfAhGHg2BhGBAJg2BAYhGEABhGJABhGDAB",
  "hGFAbLg2DAb1hGCg2DhGEAbKhGFg2FhGOABg2BhGCg2BhGCg2BhGDg2D1B2B3BhGDg2BhGCg2ChGFAb2HBAQJBADhGBg2BhG",
  "CAdHHBAQJBAbQhGBAb3HBAQJBAdOHBAQJBAdOHBAQJBAd5JBAdOHBAQJBAHcUBc1BAdFHBAQJBAdNJCAQJBAd2JBAdNdHCJB",
  "ANdLEAdMdWCJBANd0EAcMg2CA1g2BABg2BABgYBAbXeBBeCBABeEBAFeCEACeCBABhGCJBABhGCAb4g2BAdQHBABJCAcSg2B",
  "AwPhGDA9UJCA4JBAe3JBAKhGBAgLhEBAePg4BhGBg2BAg1hGBg2BAcHJBAUhGIACg2BAbQhGFg2GhGCg2BABg2ChGCg2ChGF",
  "g2BhGSg2BAChGGg2BhGEhKBAcIHBAPJBAbGhGBg2BhGHAbWJCAb0HBALJCAcDHBAeYhGDABBBg2FhGCg2EhGBABBHAEg2BAG",
  "hGBADhGCAgGhGCg2BhGHg2BhGChKBgWBg2BgKBhGbFhIBhECg2Bg0BhGBhJBg2BhGBg2BAwQhGCBChGEBDhGCAEhGBADBChG",
  "Bg2BhGBBCg2EhGBAc-4hGDAeNJBAdAhGbAArKg0BhEBhIBg4BhACAdJICA9oUhGBAEhGKAbAhGCAcQhGCAiUJBAbFJBAeXJB",
  "A1hGSAbZg2DAbFJBAc5HBAMJBAhPhGBABhGCg2BAChGCAFhGCABhGBAbUJBAhWJBAtzQ0BAyBhGHg2HhGCA+Ng2BAhCg2BA",
  "eVhGFAbuSg2BABhGBAbIhGBBBg2BAEJBAfFhGBg2BAr3hGEAcBhGFAj3hGCAcNg2CABg2DAcGg2ChGDg2BhGBg2EAbRhGBg2",
  "BhGBg2BAgAJBAbJJBAOJBAbZJBHBAcFhGDAbQJCAb4HBAcMJBAJHBAdKJBHBAfSHBJBAcQHCAQJBAYhGHADhGFAcZJDAdRJB",
  "ADHBAXhGBAdDJBHBAh1JBHBAd4JBAdWJBHBAdTJBAiNJBHBAiCJCAEHBAe2JBAcTJBASJBAcRJBAnFJBAiCHBABJCAcRJBA",
  "nJJCAqpMJBAcoABFAb1hGHAbfZGCAtfMBBAfgGgYCBDADhCBgYFAIg2IAChGFg2CA4hGEAeUhGDAdn1hGHABhGRAChGHABhG",
  "CABhGFAdEhGBAfAhGHAlXhGBAb3hGEAp2hICg2BhGBAh4hGBg2BAhThGBAChGBAHhGCAFhGBAo0g2HAdNhGGHB"]

/-- The first combining mark of all. -/
abbrev firstMark : Nat := 0x300

def isMark (c : Char) : Bool := firstMark ≤ c.toNat && inRuns markRuns c.toNat

def combiningClass (c : Char) : Nat := if c.toNat < firstMark then 0 else classAt combiningRuns c.toNat

/-- A mark that kills the vowel of the letter before it. -/
def isVirama (c : Char) : Bool := combiningClass c == 9

end Lifecycle.Text
