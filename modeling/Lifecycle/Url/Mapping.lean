import Lifecycle.Text.Packed

/-!
What characters stand for in a domain: most for themselves, capital letters and compatible forms for
others, some for nothing; and some must not occur.
-/

namespace Lifecycle.Url.Mapping

/-- The runs of characters beyond ASCII: eight times their length less one, with the kind of their
treatment, and a number that goes with it. -/
def runs : List Nat := Text.Packed.numbers [
  "h0AEeAbQAGzyqabAAAEcJIABAAAGzuiabAIAMeAGzrcabADyHIAG6zoabAEeIEcLAAGb6wysiiabRGbyoqsiiabRG",
  "b6wysiiabTAAfTbAAAbTbAiAAl3AGzxoadJAAOdquadJ3AAAbNAOgcoadMb3AGdu8av2lNAEdZbNAEiMAADgS3ADgODBAAL",
  "gNDBIADcPDgKDgLDBAADgNDgPAADgTDgRDBQADgTDgVAADgWbNADg0DBAADg0IADBAADg0DBAALgZ3ADg1DBQADBbQAW",
  "mv8adEWdquadMWdquadOd3AAAeNAAAWebuadEDBAAEdBEbYj3AEeCAAeNAbIADkrLDBAAEfDDkrIIADBAAEgDDcFDcHcNAxY",
  "AEsIEcLEsIEsBEb1Eb0EbVEsAEr5hQAGzwmabAGzxoabAGz6uabAG66qabAGztgabAGz7wabAIAEd3EtVEtPEtLEcPwQAMcA",
  "AAEbQGzrcayIDdUcAABAhYA3AEf1AADBAAKAG-usabAQAE6DDdU0AGzrcabAG7eeezyqabADbGEwQTbFCADcACALb5AAeDbA",
  "CAcDbAiQADIE4EZENEGEJEPEWAAf3AEbWEbQEbPAAEb2EcAAADBAAEbWDBIAUeCd1cQh1bAlYAiNAbYAnNADPdNAAAx3ACA",
  "jLbQKAlIAGbo6eblFQAKAQACAnQAb0AgQA0AbIAeCAfIACAvYAGbw7ibrHGbw7ibsIGbw7ibwHGbw7ibsKyYACAlYAKAoQAK",
  "AzAAdKAoQAKAmAAKAdQACAgYAKAAACAcQAbCAhYAbSAsQACA9AAGcopyciVGcopyciWGcopyciXGcopyci2GcopycjBG",
  "copycjCGcopycjLGcopycjPiYACAbYAKAIAKAfIACAbQACAAASAYAKAcAAKAIAKAYAb0AAA0AGcsxycnBGcsxycnCCAG",
  "csxycnPYAKAgAAKAQACAbIA0AIAKAfIACAbQACAAAGcw-ycrSCAAAGcw-ycrYCAIAKAAACAbAA0AIAKAQASAAAbSAG",
  "cw-ycqWGcw-ycqXGcw-ycq2AACAGcw-ycrLbSAeAAcKAQACAcAACAQACAfIACAbQACAIACAbAAKAcIACAQACAQAKAAAdSAYA",
  "KAcYAbSAbQACAQACAbYAKAIAKAfIACAbQACAIACAbAAKAcAAKAIAKAQAbSAQA0AGc-pyczBGc-pyczCCAbAAKAeIAcKAIACA",
  "bIASAQACAYASAIACAAACAIASAIASAQASAcYA0AbAASAQACAYAKAAAbKAAAdKAfAAbCAdAACAQACAfQACAdYAKAcAACAQACAY",
  "AbSAIACAQACAIAKAYAKAcIAbSAfIACAQACAfQACAcIACAbAAKAcAACAQACAYAbSAIAbCAQACAYAKAcIACAQAc0AdAACAQACA",
  "mQACAQACAbIA0AdYAKAgIACAQACAeIASAfYACAcAACAAAKAbQASAAA0AbIACAAACAbYAbKAcIAKAQAc0AmIAGdyvedsNbQA0",
  "AhAAjCAIACAAACAbAACAfYACAAACAcYAGd89edwNcIAKAbAACAAACAbQACAcIAKAGd8csdvLGd8lcdvLIAh0AcYAEBnIAG",
  "efsod6CYACAYAGefsod6MYAGefsod6RYAGefsod6WYAGefsod61cYAGefqkd6AQA0AIAGedjed7RAAGedlid7RGedyad9SG",
  "el-qedicd9SGedyad9TGel-qedicd9TbQAGedyad7ReAAGefsod8SYACAYAGefsod82YAGefsod9BYAGefsod9GYAG",
  "efsod9LcYAGefqkd8QQACAdQACAdAAjCAbhYAjLhdACADhdAbCADhdAKAkYAEbAyIAJAbzYACAYAKAbQACAAACAYAKAkAACA",
  "YAKAiAACAYAKAbQACAAACAYAKAdQACAoAACAYAKAqQAKAhYASAgIAbKAvIAKAbMIKAe-YACAgYASAwAAbSAfIAcCAfYAcCA",
  "eYAc0AdAACAQACAIAc0AmYAJAjYAKAcIAbKAcIAbKAcQAbBAcIAbKAwAAbSAkQAbCArIAcKAhQACAcYA0AcYA0AAASAkIAKA",
  "bAAcSAkYA0AgIAbKAcQASApIAKAqAACAhAAKAcQAbKAcIAbKAdIAKAlIAKAcYAe0AtAACAbjIAb0AoYASAdQASAmQAEgcOE",
  "gcNEgcEMgcCEgcDEgb2EgbEDbcoDDBAAbCAkUc+AKAUc+AbYAb0AkQAbCAkYAGdBGhGGdCAAMhgMGo3b2hgMAAGdPGrDGdQG",
  "dSMhgMGdXGdBMgxUEcEGdCMhhEGsZMgxQGdHAAGdLGdNGkLGdPGsUMb4GdQMhhDEb2GtPGdWEbXUgnLMgm0GdJGdSMhhPM",
  "gnUG+BMgnDdAAEgj1iIAGsSGdDGsVGhQGs2GdGGs5GtBGtFUgz2EbMGu3GtNEbFGu5GtRGtQ2gz2GtYMgzRGnLMgzNEe2M",
  "gzOGd0UgzMG9YpYAbfNAYAGxj8adBEb0IAGg5AAx3AbYAb2IbIAKAbMIKAbYAb2IbYAb2IbIAKAbMIKAbYACAEICAEICAEIC",
  "AEIbYAb2IAAG9MAAG9NAAG9OAAG9PAAG+MAAG+NAAG+OKAG-ushyAG-ushyBG-ushyCG-ushyDG-ushyEG-ushyFG-ushyGG",
  "-ushyHG-ushyAG-ushyBG-ushyCG-ushyDG-ushyEG-ushyFG-ushyGG-ushyHG-ushzAG-ushzBG-ushzCG-ushzDG",
  "-ushzEG-ushzFG-ushzGG-ushzHG-ushzAG-ushzBG-ushzCG-ushzDG-ushzEG-ushzFG-ushzGG-ushzHG-ush7AG",
  "-ush7BG-ush7CG-ush7DG-ush7EG-ush7FG-ush7GG-ush7HG-ush7AG-ush7BG-ush7CG-ush7DG-ush7EG-ush7FG",
  "-ush7GG-ush7HIAG-ush7QG-usa9RG-usa9MCAAAG-ush9WMIEcKG9MG-usa9RG6egabAG9ZG6egabAG7weabAG",
  "9nqizyqabAG-ush7UG-usa9XG-usa9OCAAAG-ush+GEcWG9NEcWG9OG-usa9XG7daa6egabAG7eee6egabAG9nqi6egabAQA",
  "G8QKAIAMIEdEG9PCAG7daa6fiabAG7eee6fiabAG9nqi6fiabAQAG9QYAMIEdQG+NEHG7daazyqabAG7eeezyqabAGdAKAG",
  "-ush72G-usa+JG-usa+OCAAAG-ush-WEeAG+MEd4G+OG-usa+JGzrcabAG6fiabACAcWbABAIAKAAAEBbAAG7ggabAcYASAA",
  "AbSAGbAQAGirveibSGjcyoqrveibSAAGirykibVGjc768rykibVYAGbdcabBAAGzvkabAbYAGcc+ab5Gbdcab5Gcc+abBdAA",
  "Gju9-nsyoqrveibSbQAGbAbBAbCAbJAGbQGdJKAbMicAGbLDmXGb3MicVGdOcMicQGbLDmHGb3MidFCAGdBGdFGdPGdYGsZG",
  "dI2ibLGdQMibISAbYAGd6gadSgAAdKAiAAdSAGdpymbr+adBGeb6mbr+adBGdDGdjgafQAAGd9j8br+adDGeecubr+adDGs1",
  "AAGdmmafQMifDWdIGjHOdJOdMAAGdOGdv+adOIAUifJOdSIAGdt6adTGdz9qdlkadUGdt6adUAAGd0AAG+JAAGd0AAGdLGhF",
  "MigKAAOdFGdGD2GdNGdP2g7FGdJAAGehpadhcadGG+AO9TG+ADgRYAOdEGdFMig5bIAGb+desiiabRGcalmsiiabRG",
  "bzsmbxkmsiiabRGbzsusiiabRGbzsusiiabSGb768siiabRGb768siiabSGb768siiabTGb768siiabUGb8-asiiabRG",
  "b8-asiiabVGb-hisiiabRGb-hisiiabTGb-hisiiabVGb-hisiiabXGisiiabRGdJGdpsadJGdwredpsadJGd9madJGdWG",
  "dpsadWGdwredpsadWGd9+glwredpsadWGd-qadJGdYGdpsadYGdwredpsadYGdMMiiKGdNGdJGdpsadJGdwredpsadJG",
  "d9madJGdWGdpsadWGdwredpsadWGd9+glwredpsadWGd-qadJGdYGdpsadYGdwredpsadYGdMMii0GdNQADBbAAG",
  "bzsusiiabQIA0AbgYAGjcnwirLGjusrvcnwirLAAGjcq8irOGjuv+bcq8irOb9YALdg5b-QAfKAcQAfCAcEjbPGbtaabRG",
  "bucabRGbveabRGbwgabRGbxiabRGbykabRGbzmabRGb6oabRGb7qabRGb8sabRGbtaabSGbojebucabIGbojebveabIG",
  "bojebwgabIGbojebxiabIGbojebykabIGbojebzmabIGbojeb6oabIGbojeb7qabIGbojeb8sabIGbrfwjwgabucabIG",
  "brfwjxkebucabIGbrfwjyoibucabIGbrfwjzsmbucabIGbrfwj6wqbucabIGbrfwj76ubucabIGbrfwj8+ybucabIG",
  "brfwj+c8bucabIGbrfwj-habucabIGbrfwkalebucabIGbrfwjwgabveabIe0AGbojedhcabIGbojedieabIGbojedjgabIG",
  "bojedkiabIGbojedlkabIGbojedmmabIGbojednoabIGbojedoqabIGbojedpsabIGbojedquabIGbojedrwabIG",
  "bojedsyabIGbojedt6abIGbojedu8abIGbojedv+abIGbojedxaabIGbojedycabIGbojedzeabIGbojed6gabIG",
  "bojed7iabIGbojed8kabIGbojed9mabIGbojed+oabIGbojed-qabIGbojeeasabIGbojeebuabIgMjcVgMjdPGbQkiAAG",
  "kh7wymsrvcnwirLzQAGce7ub9uab0Gca6ab3Gce7uca6ab3zAAG7lqkw3bfQAKAbcIAl1bQlYADBAAGtLEdxGGt3IAbNAGsR",
  "GtRGsQGsSAADBIADBbIAGdKGdWMkr5y3AbQA3AQADBAAbCAlAACAAAbCAAAKAnYAbSAEOAAdKAfYAcCAbQACAbQACAbQACA",
  "bQACAbQACAbQACAbQACAbQACA-IAiKAgIACAYADpjOuQAD8fMc0ADhyADhzHDhzUDhz2Dh6VDh8ADh8GDh8ZDh9SDirWDis1",
  "DitADitWDiuJDiu3DiwRDixFDixPDi8JDi-GDjaBDjaFDjbCDjbKDjcEDjcQDjdIDje1DjfMDjgGDj9ZDkaADkoLDkpBDkpI",
  "DkpSDkqDDksODlbKDlcZDlgQDlhGDlhYDliNDlkCDlkEDlvNDlvWDlwBDlwNDl6ADl6HDl6LDl95Dl+IDl+UDl+1DmaXDmbH",
  "DmbYDmeHDmwLDmxYDmyMDnpPDnpTDnsFDnsUDntADntUDnu0Dnu4Dn9IDn95Dn+4Do+VDpaWDpbMDpdFDpd2DpeEDpeKDpf3",
  "DpgBDphADqiWDqwUDqw5DqxDDqxGDqxNDqx4Dqx5Dq6PDrbGDrbKDrl2DrmFDrnWDrn2DroEDroLDrrFDrrLDryODryUDr6E",
  "Dr6UDr8CDsdODsdUDseEDsoKDssHDssMDsyBDs6XDs8EDth3DtmBDt94Dt+YDuaQDucCDueFDuePDueUDufUDuh5DuiIDutB",
  "DutHDutPDutXDuuGDuuUDuuXDuxFDuxIDuxNDvwBDvw4DwfSDwf3DwgTDwpNDwpZDwr5DwtMDxfCDxfQDxf4DxhADxiEDxoK",
  "DxoVDxqXDxyODxzMDx-2DyaQDyaUDyhPDynGDyrCDyrHDyrLDzoQDzoYDztTDzyMDzyODzz2Dz9EDz9QDz9TDz9ZD6a0D6b1",
  "D6cAD6cND6hTD6jFD6jID6o4D6pAD6pSD6xND6y2D6zCD67HD67QD67SD671D68YD7jCD7vRD7v0D7w5D7xUD7x1D7yED7yH",
  "D7zOD7zRD76BD76FD76RD77LD77ZD78AD790D7+ID7+LkKAGbAAAGbOmQAEbEAADiyJLiyLbAACAvIAKAIAGm9csabAG",
  "m9duabAIAGm8sumeIxQAGm+uqmfTbCAkQACAMibREh8JEibSMh8JUibUbMh8KEibGUib1EibDcMib2fEh-OBAMicRMh9AE",
  "h83Eh82Eh8YEh8VEh8UEicSEh8SEh8RMicUEicTMicSEicPEicObEicNEicLEicIEib5EibZEibVMh8RUibNMiaDEiaBMh-Z",
  "Eh-YEh-PEh-NCAIADhdODhhZDhdVDjkGDhdUDheWDhdTDq8ZDhf5Dhd4DhdFDj8MDjmSDhi1rIAcKAdYAGbojiqqaabIG",
  "bojiqseabIGbojiqtgabIGbojiqvkabIGbojiqwmabIGbojiqxoabIGbojiqzsabIGbojiq7wabIGbojiq8yabIG",
  "bojiq+8abIGbojiq-+abIGbojirbaabIGbojirccabIGbojirdeabIGbokrwaaabIGboks9bqabIGboktqsiabIG",
  "bokuxtyabIGbokvleqabIGbokv+viabIGbokxfwyabIGbokymyiabIGbokzajaabIGbok6hkqabIGbok667iabIG",
  "bok7omaabIGbok8b8yabIGbok8vnqabIGbokzmlyabIGbrhowmseugiabIGbrhs7tkeugiabICAGbojyxaaabIG",
  "bojy7uyabIGbojyxjsabIGboj7ciwabIGbojy79iabIGbojzud6abIGbojyxdgabIGbojzubwabIGbojy6c6abIG",
  "boj6dvcabIGboj-lyqabIGbokb7rwabIGbokaxxiabIGboj-m6qabIGbokkxocabIGboj7eq+abIGboj-cdkabIG",
  "boj-vmuabIGboj-lzsabIGbokegr8abIGboj6kn6abIGbokcnasabIGbokjllcabIGbokehs6abIGbojz+-iabIG",
  "bojy+rgabIGboj6odyabIGboj8i8mabIGbokdsrgabIGbojy-rcabIGbokjmtoabIGboj6ejiabIGbokeid6abIG",
  "bojzaccabIGbokgqiuabIGbokgqsgabIDiyLDlbXDm6BDskIbYAGdsaud7iadQGbucabSGbveabSGbwgabSGbxiabSG",
  "bykabSGbzmabSGb6oabSGb7qabSGb8sabSGbtaabTGbucabTGbveabTGbwgabTGbxiabTGbykabTEilAMik5Uik4Eik3Mik2",
  "bEik1D+mSD-rJDbadUDbbiLDbb6WDbcnBDbdrYDbewPDbfi0DbgnRDbg-2DbhsHDbieSDbiw3Gbn9obtbYGbu+nrsh2DbfbS",
  "AADg8ADhaLDg8HDjcYDhaQDhxIDg73DhxEDg+VDifYDnd4DppADonIDne1Dx6DDjeQDm6VDnmZDndXDrvLDilZDp-EDwqLD",
  "rwGDia2Drz5Dqu3DjwYDxoNDhuNDigSDosJDzlFDhdQDhxXDogADg7GDg8IDg7FDkz5DikLDieSDkhNDkf1DrbXDhcUDwqZD",
  "ifFDjtMGbzmabTGb6oabTGb7qabTGb8sabTGbtaabUGbucabUGbveabUGbwgabUGbxiabUGbykabUGbzmabUGb6oabUG",
  "b7qabUGb8sabUGbtaabVG7lyqabRG7lyqabSG7lyqabTG7lyqabUG7lyqabVG7lyqabWG7lyqabXG7lyqabYG7lyqabZG",
  "9cqbabtaabRG9cqbabucabRG9cqbabveabRGdnoadIGdui8dzeadFGd9madFGdq8qd7iadMErOErNErMErLMrKErJErIErHE",
  "rGErFErEErDErCErBErAEq5Eq3Eq2Eq1bMq0EqYEqWEqUEqSbEqQEqPEqObMqN2qMGwouytxEGouc8-6mp8++cmfCG",
  "osuecbapa-zwmfCGosvkojgdvacgmfCGnzzjzalymfCGotgdz6cky+xwmfEGnyj8racgmfEGn6cky9tsmfGG",
  "prmls6ri8xvsi+esmfIGowbi8xrbzalymfIGnya7racgmfKGnzm8nalymfKGnzyfu9oimfLGouc8-ymey-xsmfLG",
  "owbi8zyfu-76mfLGn6cky-76mfMGnzkufacgmfMGm9wymfOGn6mp8+xwmfOGowbi8zyfu-tkmfNGowbi8yiym-zwmfOG",
  "m-76mfNGpsjvsfkpt-wwm-76mfNGqr9frugcz6bi8zoaq-76mfNGprlczx89cr96i-76mfNGnzm8m-xsmfQG",
  "ptb8nns8-zm8m-xsmfQGps6hxjhxgyeh8-zwmfPGoui89cmp8-76mfPGnya7ralymfRGnyubu-zwmfTGnzjqbalymfTG",
  "ovm8mpvsi9oimfVGpsjvsgbi8yj8racgmfVGotgdz6cky-yumfXGnyj8racgmf1Gnyrznacgmf1Gnya7ralymgAGm+comgHG",
  "m-zwmgJGnacgmgIGm+68mgKGnyrzm+pgmgOGnyni89oimgPGprlczzwpoqddzalymgRGnyni9alymgRGovm8mr6n9alymgQG",
  "psxwfjs8-ya7q9memgUGnzzjy9z+mgUGm9+gmgUGm-zwmgTGprmlsym9crxbq9lcmgVGouc8-6mp89ngmgVG",
  "psxwfilklp+ti+pgmgWGn6cky-xsmgVGpsxwflri8yhui9z+mgYGm+i6mg0Gny9cu+xwmg0Gnyni8-zwmgYGnya7racgmg0G",
  "nx-xnalymg0GnyhujalymgZGouc8-6cky9oimg3Gnyrzm-zwmg2Gnacgmg1Gnys9racgmg3Gnzzjzalymg1Gn6ckzalymg1G",
  "ovpje-vsi9oimg4Gnzzjy9oimg4Gnyzwi+pgmg4Gnxvsi-zwmg4Gptb8noyc7p+tjacgmg4Govwpor7sa9z+mg5Gm-yumg5G",
  "psxwflri8y66m-yumg5Gm9wymhBGovwpoqrzm9wymhBGovm8mqrznalymhBGnys9ralymhEGnzzjzalymhEGn6cky9memhGG",
  "ovm8mqrzm+pgmhKGm-xsmhKGn6mp8-bimhLGovm8mrbtfalymhLGm-oamhMGptb8nmyqsirznacgmhMGnyrzm+pgmhPG",
  "9+esabQG9+esabRG9+esabSG9+esabTG9+esabUG9+esabVG9+esabWG9+esabXG9+esabYG9+esabZG-6a7ebtaabRG",
  "-6a7ebucabRG-6a7ebveabRG-6a7ebwgabRG-6a7ebxiabRG-6a7ebykabRG-6a7ebzmabRG-6a7eb6oabRG-6a7eb7qabRG",
  "-6a7eb8sabRG-6a7ebtaabSG-6a7ebucabSG-6a7ebveabSG-6a7ebwgabSG-6a7ebxiabSGdnqedxaadIGdhcadEGd8kadB",
  "GeawidhcadCGd9madPGdjgadQGdt6adEGbyoidt6adEGbzsmdt6adEGd8kadJG6braxtTGwouyzrNG8qzgwjHG88gwzqOG",
  "belm+n6mmbh-+6bKGdhcadQGdhcadOGdhca92GdhcadNGdhcadLGdieadLGdieadNGdieadHGdz9qdhcadDG",
  "ebrldnqedjgadLGdmmadQGdmmadOGdmma92Gdnoa92GdnoadNGdnoadLGebuadIGejxidoqadLGejxidoqadNGejxidoqadH",
  "GejxidoqadUGdsya92GdsyadNGdsyadEGdsyadLGdt6adGGdt6adOGdt6a92Gdt6adNGdt6adDGdt6adLGbyoidt6adNG",
  "byoidt6adDGbveadNGbyoidt6adLGbzsmdt6adNGbzsmdt6adDGbwgadNGbzsmdt6adLGeb6vbwkadNGb7-eub6vbwkadNG",
  "dhcadQGdnqedxaadLGdnqedxaadNGdnqedxaadHGdq8qdhcadSGessharkblq8qdhcadSGcdwrdesharkblq8qdhcadSG",
  "d6gadQGd6gadOGd6ga92Gd6gadNGd9madQGd9madOGd9ma92Gd9madNGd9madLGd9madNGd+oadQGd+oadOGd+oa92G",
  "d+oadNGd+oadLGd+oadNGbafsadLGbafsadNCAGdycadCGdjgadDGdkiadDGd7rn7yzvbwkadDCAGdieadEGeasadHG",
  "dhcadIGdxaadIGdu8adJGdrwadLGdt6adLGd7iadLGdt6adMGdu8adMGdui8dv+adMGd-qadMGdieadNGdz9qdpsadNG",
  "dz9qdv+adNGdoqadQCAGd7budxaadQGdzeadQGdzeadTGd9madTGdieadXGd7b9bwkadWGd7b9bwkadBG7cdkabRG7cdkabS",
  "G7cdkabTG7cdkabUG7cdkabVG7cdkabWG7cdkabXG7cdkabYG7cdkabZG8yhqubtaabRG8yhqubucabRG8yhqubveabRG",
  "8yhqubwgabRG8yhqubxiabRG8yhqubykabRG8yhqubzmabRG8yhqub6oabRG8yhqub7qabRG8yhqub8sabRG8yhqubtaabSG",
  "8yhqubucabSG8yhqubveabSG8yhqubwgabSG8yhqubxiabSG8yhqubykabSG8yhqubzmabSG8yhqub6oabSG8yhqub7qabSG",
  "8yhqub8sabSG8yhqubtaabTG8yhqubucabTGdz9qdhcadHhbdAASAnQAcCAcwYAe0AlNAeIAg3AGbcKGbcMwIAb0AiIAdNAI",
  "ApNAEBbYA3AGhlZcNAQADBAAGtFIA3AIAe3AGtGGs2GtBGtMGtKAAGu4GuHGu3D9Ad3AEbQGuCGhmO3AGtEd3AGm1e0AGdTG",
  "dDGdGGdRDBIAGjHGkTmQASAcIAbKAnYAb0ArIAb0AcYAbKA8YAcSAhIASAtIACAcQA0AiAACAnQAcCAdIAKAcIAKAzQAf0A",
  "gYAcKAbIAKAbIAKAbIAcCAbQACAbQACAkYAEbbVEbGGtLENcAAGuNIA0At2bf+QlIAKAcIAbKAcxiYAc0AfQA0AmAAcca0AE",
  "7fYGzxUE6rYE7b1G7wRGtrSGu-FObh82GwkREzzZGvmHGwkIGypWG9tJE+mKE8wRE8kXE8a0E6eEG6qCG7i1G8gZG8+4E9g1",
  "Ez9PExzJGtuCGu7VG6yEG8q1E8xSEwyCGxkQG7-LE86WE7+AGywJE96OE8iIGxwKGzyXG7lKG8x2E6c4Gt8GGunXGuw4GzgE",
  "G6wTG8qQG9xHE+jTE8zPE8w0E66IEyqGExoKEw6AG+eME-93E+83E9lVEzr1EwwBE7tLGwg5GxyEE-hEE+gHG8tCG+gKE7eG",
  "EysSGwgYGxdCG6qTG7o0G7yPE-bAE+yZEyyGGuwSE+gIGuo2GuoME-z0E+8ZE9lHEyxEE7o0GywPG6qCE7s5GtrZGw-HGyaS",
  "G88HG9lQGuyXG+h1Gt95Gx9JGtqNG7gMGzlYE-cIGu+DGwc4G9yBE9jFE7wFG690E6oBG7eIGyx4E9uPGy9AG9lFGtvOGulJ",
  "GuoJG6eBE-eUE9yNE7vLEz9PGuxVGvcCGwlTGxxMGzoFG7-4G+jKEy+ZExy3EwxREwv1Guu1GzwGG67XE6rLGxtUGymQGyqA",
  "Gze0G7zDG8kJG9eJE-+LE+9CE+jIE6tSE9fLE6lXEzsRGuqXGuvDGvf3G8gIE8g4E7xXGxwJGx-VGy71G69OE-lIG87VGtxE",
  "GvxZGw-HGxn0Gya2G89SG9dJE+qVE+lKEz73Eyv2EytLEym2Gt8LG+nOE6aDEyyAGyhBGtuGGug0Gw-OGxb5GzmZG6qCG8oO",
  "G9sCE9gGE6kHEwrXGzuIEy8YGuuJGz71Gz-TG7kBG7u2G9aJG9kZG+dLE-f5EylSGulNGyrOEy61GubLGxiZG7pKE6vNGx8L",
  "GykEG6aXG88HEy6WGurJGvaPGxdFGzqTGz6OG6fIG7hFG9aGG9pCE+tNE8iYE8iHE6a3EyyIGuz5G7v0Gva3G8oQG9eYE8-W",
  "Ey6OExm1Ew6UGz8XG7oLE+aOE-zME-wYE-lHG8wAG8eZE7vEGtwAE9wIGur0GuqHGxvGGywTE-jNGw8FG7i4GzvUE6wME8n2",
  "Ey92E8d5GxwTGukAGvoAIAGwc0AAGztUIAGuo4G8zKG9wKG+j2G+k4G+lFG+mPEywGE-k5E+tBAAE9aOAAE7zKIAE6pNE6jJ",
  "QAEyj1EyjPEyiEExdZE6kQEy7YGt9OGuhHGukNGuwJGuxEGu6RGvm3GvqGGvtIGwcAGwfIGxdEGxdOGyeUGylIGymOGypSG",
  "zkPGzpCGzuRG6eFG7lXG7q0G7zCG8lOG8rLG9bCG+eRG+j4G+kJG+kIG+kQG+kWG+k3MbagFG+sAE-+UE-uWE-dDE-cPE-aY",
  "E+xIE+sWE+dPObatZE9qIE8kQE8gLE77BE7zKE7mRE7k3E6vQE6rPEy8FEytKEyrPGydVDcseCE+cVKAGtrGGunVGulIGt8A",
  "GukFGumAGuwHGux0Gvm3GvkVGvmZGvpCGwc0GwfTGwkEGwkUGwtCGwzIGxwSGxwZGx7JGx9NGygYGykOGyiIGymOGylAGypS",
  "GyrUGy+EGza2GzcSGzkWGztUGzyXGzy1Gz6WG67ZG690G7kBG7w1G7wLG7zCG8a4G8lOG99HG8rVG8vPG8zKG9dRG9iGG9j1",
  "G9q3G9q5G9wKG9w1G9xUG96KG96AG+gME--1E-xNE-rTE-kUE-f2E+7TE+vNE97BE9wFE8z2E8lVE8jRE8jCE7-0E7+CE7-Q",
  "E791E795E7+RE78GE7zWE7nZE68KE6sRE6jLE6cPEzcKEy-EEy7SEyxOEywLEywAEyuREx91EwzSDcll1DcllUDcoiEGo83G",
  "qaYGqbZDcv7UDcyp0Dda-2Ew8VEw6LjKAGdmmadGGdpsadGGdsyadGGdwredmmadGGdz9qdmmadGOd7iadTc0AGbonmblUG",
  "bn7kblUGbobwblUGbonmbl4Gbod6blUbCAGbqpiboZAAGbqsobpSGbpCGboQMb9kPUb9kJGbpIGbpKGbLGbq9cbpJG",
  "bq+ebpJGbt+8fqxybpJGbuaajqxybpJGbqsoboQGbqtqboQGbqxyboQGbqxyboRGbqxyboSGbqxyboTGbqxyboUGbqxyboVG",
  "bqxyboWCAGbqxyboYGbqxyboZGbqxybo0Gbqxybo1Gbqxybo2CAGbqxybo4CAGbqxybpAGbqxybpBCAGbqxybpDGbqxybpEC",
  "AGbqxybpGGbqxybpHGbqxybpIGbqxybpJGbqxybpKGbqusboVGbq6+boRGbq6+bo1Gbq6+bpEGbrzyboQObtR4bt14bt44",
  "buA4bt04bt54btZ4bvE4bvG4buE4buD4buG4buHObuNObuMObuOObuIObuYObuR4bvJ4bvP4bvT4bvRObv04bv1ObwA4bwB4",
  "bv4ObwSObwTiAA4bvNObwHObwGObwIGbw7ibwHObwLObwFObwJ4bwQObsJObujobrGOb6ckbrGObvmqbrGObztobrGO",
  "bzsmbrGObzuqbrGWbz9abrGWbvnsbrG4bwMGbuoybrGGbup6brGGbvjkbrGGbvnsbrGGbvoubrGGbuoybrIGbup6brIG",
  "buq8brIGbvjkbrIGbvnsbrIGbvoubrIGbuoybrKGbup6brKGbuq8brKGbvjkbrKGbvnsbrKGbvoubrKGbuoybrLGbvjkbrLG",
  "bvnsbrLGbvoubrLGbup6brMGbvjkbrMGbuoybrNGbvjkbrNGbuoybrOGbup6brOGbvjkbrOGbuoybrTGbup6brTGbuq8brTG",
  "bvjkbrTGbup6brVGbvjkbrVGbuoybrWGbup6brWGbuq8brWGbvjkbrWGbup6brXGbvjkbrXGbvjkbrYGbuoybrZGbvjkbrZG",
  "buoybr0Gbvjkbr0GbuoybsBGbup6bsBGbuq8bsBGbvjkbsBGbvnsbsBGbvoubsBGbup6bsCGbvjkbsCGbvnsbsCGbvoubsCG",
  "bujobsDGbuoybsDGbup6bsDGbuq8bsDGbviibsDGbvjkbsDGbvnsbsDGbvoubsDGbuoybsEGbup6bsEGbuq8bsEGbvjkbsEG",
  "bvnsbsEGbvoubsEGbuoybsFGbup6bsFGbuq8bsFGbvjkbsFGbvnsbsFGbvoubsFGbuoybsGGbup6bsGGbuq8bsGGbvjkbsGG",
  "bvnsbsGGbvoubsGGbuoybsHGbvjkbsHGbvnsbsHGbvoubsHGbuoybsKGbup6bsKGbuq8bsKGbvjkbsKGbvnsbsKGbvoubsKG",
  "bwxabrQGbwxabrRGbwxabsJGbzbofvqyabAGbzbofvr6abAGbzbofvs8abAGbzbofvt+abAGbzbofvvaabAGb6eobvwcabAG",
  "buucbrGGbuvebrGGbvjkbrGGbvkmbrGGbvnsbrGGbvoubrGGbuucbrIGbuvebrIGbvjkbrIGbvkmbrIGbvnsbrIGbvoubrIG",
  "buucbrKGbuvebrKGbvjkbrKGbvkmbrKGbvnsbrKGbvoubrKGbuucbrLGbuvebrLGbvjkbrLGbvkmbrLGbvnsbrLGbvoubrLG",
  "bvnsbsBGbvoubsBGbvnsbsCGbvoubsCGbujobsDGbviibsDGbvjkbsDGbvnsbsDGbvoubsDGbvjkbsEGbvnsbsEGbvoubsEG",
  "bujobsFGbvjkbsFGbuucbsGGbuvebsGGbvjkbsGGbvkmbsGGbvnsbsGGbvoubsGGbwxabsJGbuucbsKGbuvebsKGbvjkbsKG",
  "bvkmbsKGbvnsbsKGbvoubsKGbuoybrGGbup6brGGbuq8brGGbvjkbrGGbvlobrGGbuoybrIGbup6brIGbuq8brIGbvjkbrIG",
  "bvlobrIGbuoybrKGbup6brKGbuq8brKGbvjkbrKGbvlobrKGbvjkbrLGbup6brMGbvjkbrMGbuoybrNGbvjkbrNGbuoybrOG",
  "bvjkbrOGbuoybrTGbup6brTGbuq8brTGbvjkbrTGbup6brVGbuq8brVGbvjkbrVGbuoybrWGbup6brWGbuq8brWGbvjkbrWG",
  "bup6brXGbvjkbrYGbuoybrZGbvjkbrZGbuoybr0Gbvjkbr0GbuoybsBGbup6bsBGbuq8bsBGbvjkbsBGbup6bsCGbvjkbsCG",
  "buoybsDGbup6bsDGbuq8bsDGbviibsDGbvjkbsDGbuoybsEGbup6bsEGbuq8bsEGbvjkbsEGbvlobsEGbuoybsFGbup6bsFG",
  "buq8bsFGbvjkbsFGbuoybsGGbup6bsGGbuq8bsGGbvjkbsGGbvlobsGGbuoybsHGbvjkbsHGbwxabsHGbuoybsKGbup6bsKG",
  "buq8bsKGbvjkbsKGbvlobsKGbvjkbrGGbvlobrGGbvjkbrIGbvlobrIGbvjkbrKGbvlobrKGbvjkbrLGbvlobrLGbvjkbrTG",
  "bvlobrTGbvjkbrUGbvlobrUGbviibsDGbvjkbsDGbvjkbsEGbvjkbsGGbvlobsGGbvjkbsKGbvlobsKGbzbofvs8bsAG",
  "bzbofvt+bsAGbzbofvvabsAGbvnsbrXGbvoubrXGbvnsbrZGbvoubrZGbvnsbr0Gbvoubr0GbvnsbrTGbvoubrTGbvnsbrUG",
  "bvoubrUGbvnsbrNGbvoubrNGbvnsbrMGbvoubrMGbvnsbrOGbvoubrOGbvnsbrVGbvoubrVGbvnsbrWGbvoubrWGbuoybrUG",
  "bup6brUGbuq8brUGbvjkbrUGbuucbrUGbuucbrTGbuucbrVGbuucbrWGbvnsbrXGbvoubrXGbvnsbrZGbvoubrZGbvnsbr0G",
  "bvoubr0GbvnsbrTGbvoubrTGbvnsbrUGbvoubrUGbvnsbrNGbvoubrNGbvnsbrMGbvoubrMGbvnsbrOGbvoubrOGbvnsbrVG",
  "bvoubrVGbvnsbrWGbvoubrWGbuoybrUGbup6brUGbuq8brUGbvjkbrUGbuucbrUGbuucbrTGbuucbrVGbuucbrWGbuoybrUG",
  "bup6brUGbuq8brUGbvjkbrUGbvlobrTGbvlobrUGbvjkbrXGbuoybrTGbup6brTGbuq8brTGbuoybrUGbup6brUGbuq8brUG",
  "bvjkbrXGbvjkbrYObvpwbrHeIAGbyt8vuoybrKObxxvrup6brKGbyt8vup6brKGbyt8vuq8brKGbxxvrvjkbrKG",
  "bxyzvvjkbrKGbxz9zvjkbrKObxyzvvjkbrMGbyzrjvjkbrNGbyynfvjkbrNGbxxvrup6brTGbxyzvuoybrTGbyynfuoybrTO",
  "bxyzvvjkbrTGbxxvrvjkbrTObyt8vvjkbrTObxyzvup6brVGbyt8vvjkbrVObyt8vup6brUGbyzrjuoybrUObxz9zvjkbrUO",
  "byt8vvjkbrUGbyynfup6brWObyt8vuq8brWObxyzvvjkbrXGbyt8vvjkbrXGbyzrjvjkbrXGbyt8vuoybrZObyt8vvjkbrZG",
  "byynfvjkbrZGbyt8vvjkbr0Gbyzrjvjkbr0Gbyynfvjkbr0Obyt8vuq8bsBGbxyzvvjkbsCGbyt8vvjkbsCGbyt8vup6bsEG",
  "byzrjup6bsEGbyynfup6bsEObxxvruoybsEObyt8vuq8bsEObxyzvvjkbsEGbxxvrup6bsFGbyt8vup6bsFGbyzrjup6bsFG",
  "bxyzvuoybsFGbyt8vuoybsFGbxxvruq8bsFGbyt8vuq8bsFIAGbxz9zuoybsFGbxxvrvjkbsHGbyt8vvjkbsHG",
  "byt8vup6bsGGbyynfup6bsGObyt8vuoybsGGbyynfuoybsGGbyzrjvjkbsGGbyynfvjkbsGObyt8vvjkbsKGbyzrjuq8brIG",
  "byzrjuoybrKGbyynfuoybrKGbyzrjuq8brKGbyynfuq8brKGbyzrjvjkbrKGbyynfvjkbrKGbyzrjvjkbrMGbyynfup6brMG",
  "byynfvjkbrMGbyynfuq8brTGbyzrjup6brVGbyzrjup6brUGbyzrjup6brWGbyzrjuoybsEGbyzrjvjkbsEGbyzrjup6bsKG",
  "byzrjuoybsKGbyzrjvjkbsKGbyzrjvjkbsFGbyzrjvjkbsCGbyzrjup6bsGGbxyzvvjkbsCGbyt8vup6bsEGbyzrjvjkbrZG",
  "byzrjvjkbsDGbxyzvuoybsGGbyzrjuq8bsFGbyt8vuoybsEGbyt8vvjkbsDGbyt8vuoybsEGbxyzvuoybsGGbyzrjup6brMG",
  "byzrjuoybrNGbyzrjuoybsFGbyzrjvjkbsBGbyzrjup6brIGbyt8vvjkbsDGbyt8vuoybrZGbyt8vvjkbrVGbyzrjuq8brTG",
  "byzrjuoybsGbYAh0AGb9tcjviibrVGb9tcjviibsCGb8hrhqsyrviibrHGb7nez-tfbvhgbrHGb7kybqt8vup6bsFG",
  "b8fepaglfviibrVGb8d+cyxjbuwgbrRGb8hrhqzrjviibrZGb8fepasyruwgbsIGbyynfviibrVG",
  "emsp8mqwrg+jhyeh7jettgzk-qnxr8i8lk98c7uyqlbqt-mbdrygk67hhuwmjyynfviibrVG",
  "cmyql-mbdqq9yctf+9he7beebviibrMGb8d+cxsa9zyybrRQAdZAGbMGmaBCAMb-oZGbBGb5MbtqBbSAdYACAGiaUGiaTOc5",
  "Mb-qNGd1Gd3MbtrFMbtrLMbtrTMbtrX2btrVIAGc1Gc34zvkabAWc5GbMGmaBKAGb1Gb0Gb5GbBGiaUMb-rRGd1Gd3MbtsJG",
  "bDGbGMb-rXGbNGb2Gb4Gb3CAGc2Mb-sFGcA0AGbvpwabAGbvpwbsAGbvqyabAAAGbvr6abACAGbvs8abAGbvs8bsAG",
  "bvt+abAGbvt+bsAGbvvaabAGbvvabsAGbvwcabAGbvwcbsAGbvxeabAGbvxebsAMb+c5Mb+dAMb+dBMb+dCMb+dDWbrGObrH",
  "4brIObrJ4brK4brL4brM4brN4brOObrPObrQObrRObrS4brT4brU4brV4brW4brX4brY4brZ4br04bsB4bsC4bsD4bsE4bsF",
  "4bsG4bsHObsIObsJ4bsKObueebsEObufgbsEObuhkbsEObujobsEKABACAh2b-xAgMb-wAi2b-xAMbvo0GbOMbt6WGmaBG",
  "mh1GmhSGmfBGmfDGmfFGmfHGmfJGmhDGmhFGmhHGmgDGmh2GmfCGmfEGmfGGmfIMbtwLGmfNGmfPGmfRGmfTGmfVGmfXGmfZ",
  "Gmf1Gmf3Gmf5GmgBGmgEGmgGGmgIbMbtv1GmgSGmgVGmgYGmg1bEbtvRGmhEGmhGbMbtvOGmhPGmhTMbtyFBAMb7vBGenKG",
  "eiCMb7pZUb7vEbMb7p0Gei0Ub7vLGejBcMb7vMSAbMb7tBKAbMb7tDKAbMb7tFKAUb7tHSAMb-z4GfMGzuiabAGfGGfFGifJ",
  "CAGjiC2bxsZGjnAGjoLeCAcYACAgIACAeQACAIACAdQAKAdIAiKA+QAbCAQA0AlAASAvYACAdAASAAAlSAlIAbaKAhAASAmA",
  "AdSAgYA0AiYAcCAhIAbCAkQAbCAhIACAjAA0AdIAkKAj1bI9IAKAcIAbKAi1bI0AiYA0AjYAb0AmYAcSAAAcTbHCAdTbHCA",
  "bTbHCALbHCAcQACAdQACAbQACAIASAmYAc0AcnQAcCAfIAcKAbYAf0AAAMcbfRGhGGuZGsTCAGvDExbCGvFGvEMcbjVGhmRG",
  "sYGs4GvJGtEGtCGtAGu1GjHGu2GtHGuEMcbhPGtMDbv7IEyaPGtODbv7GGuODbv7FGhYMcbjNGdRGt0Dbv7BMcbjLGuAGvIG",
  "vGExcGGvHGuIGldRCAGuPMcbiSGuYUcbpWDbv6RDbv7ErCAbIAKAAACAkYACAIASAAAKAfQACArYAb0AcAAl0AeQACAIAbCA",
  "iAASAgQAbCAgQAjKAnYA0AeYAKAmIACAIAbCAbYACAQACAhAAKAQA0AcIAbSAcAAbSApYAh0AjQA0AcYAcCAnIASAhAAKAgQ",
  "AbCAgIAbSAYAc0AbQAt0AsAAnSAmTcAdCAmQAbSAlIAb0AcIAbKAdYAfLbASAhAAb0AIAbt0AhQACAkIACAQAKAIAd0AbIA",
  "b0AcAAiCAlIAb0AkIAfKAgIAjKAgYAe0AfQAcCAtIA0AiYAcCApIACAbAAdCAgAAbSAcIAbKAnAACAeIAb0AjQAcCAxYACA",
  "eYAcSAeIACAlQApKAbQACAAACAYACAdQACAcQAbKAoQAbCAcIAbKAYACAbYAKAIAKAfIACAbQACAIACAbAACAcIAKAIAKAQA",
  "KAAAbKAAAbCAbQAKAbQASAbAAcSAcIACAAAKAAACAjIACAcIACAAAKAAACAYACAcIACAIAb0AIAhCAwYACAbAAhKArYAb0A",
  "cIAbjKAnIAKAjIAiKArAAcSAcIAbKAdAAeSAoIAbKAcIAbKAeYAg0AgQAKAdQA0AfQAboCAoYAy0Ah1bAmQAc0AbYAKAAAKA",
  "bYACAIACAhIACAIAKAcYAcCAcIArKAbYAKAlIAKAcQAgSArYAb0AuQAdCAsAAbSAcIAvKAbYAv0AiIAdKAcIAbKAcAACAlAA",
  "CAdIAcKAhAASAhYAKAfIACAdIAsCAbQACAIACAkYASAAACAIACAcAAb0AcIAbKAbIACAIACAjAACAIACAbIAbSAcIAbKAkYA",
  "0AcIAb9KAgAAbSAeAACAkAASAhAAvCAAAdSAmIAdCAhgQAzKA7QACAbAAcSAbqYAus0AyQAdCAilYAd0AfIAcKA-gQAbCA",
  "erQAbvoCAoIAnrKAeoAAbSAhQACAcIA0AuAACAcIAbKAhIAKAbIAcKArIAcKAcIACAbQACAfAAbCAeQAdl0AoIAbrKAh1bA",
  "oQAbCAgD1KAgAAk0AsQA0AoAAbSAeAAp0AbAAcSAbQAcCAbzvIAkCAhYAyCA8QAcd-CAYACAbQACAIACAciQAdSAAAhCAQAK",
  "AAAdKAYAb0AdcYAsa0A6QAbCAdAASAcAAbSAcIAKAYAZA+w0AbvIAgMdtdVcMdtgAQASAdmYAbKAfQAdSAeAAdSAlIAKAfQA",
  "cCA8YAo0Ab9IAcKAjQAKAnAAGd7t7nukXGd7t7nukYGedlnjtt7nukYGedlonxt7nukYGedlpr7t7nukYGedlqv-t7nukYG",
  "edlr6dt7nukYdIAbZApYAGd7t7nunZGd7t7nun0Gedlnjtt7nunZGedlnjtt7nun0Gedlonxt7nunZGedlonxt7nun0kIAfC",
  "ArIA+KAeYAc0AeYAc0AvQAcCAgAAbbSAgMdu85gMdu9ZgMdu+TbUdu-NCAeMdu-NgMdvaHgMdvbBGdBCAMdvb1KAGdHKAM",
  "dvb1KA2dvb1CAb2dvb12dvcVCAGdGCAbUdvcVCAcUdvcVgMdvdPgMdveJMdvfDCA2dvfDKAb2dvfDCAbUdvfDCAgMdvf3M",
  "dvgXCA2dvgXCAbEdvgXCAGdPSAbUdvgXCAgMdvhRgMdviLgMdvjFgMdvj5gMdvkZgMdvlTgMdvmNgMdvnHgMdvoBgMdvo1gM",
  "dvpVgMdvqPgMdvrJGjRGrXKAeEduxXG9YbUduxXGiqHeEduyRO+DbMduyRGiqCG9VG9YG90G+GG+BG+AeEduzRG9YbUduzRG",
  "iqHeEdu6LO+DbMdu6LGiqCG9VG9YG90G+GG+BG+AeEdu7LG9YbUdu7LGiqHeEdu8FO+DbMdu8FGiqCG9VG9YG90G+GG+BG+A",
  "eEdu9FG9YbUdu9FGiqHeEdu95O+DbMdu95GiqCG9VG9YG90G+GG+BG+AeEdu+5G9YbUdu+5GiqHeEdu-ZO+DbMdu-ZGiqCG",
  "9VG9YG90G+GG+BG+AO+3KAcMdv84cMdv9IcMdv9ScMdv92cMdv+GfcYAdSAbAACAdQAit0AhQAbKAbIAbvCAbQACAeAAKAbQ",
  "ACAIACAbAAbCAcEdxaAUdw-5cUdw-4GbcLMdw-1EcooBGbgZGbcWGbcYGbhJGbfPGbgPcEdxbBMdxbAMdxa4GbcBbMdxa2M",
  "dxa1GbeRGbcWGbcVGbc5GbfLEcoq1GbfRiCAAA70AlAASAdIAKAcIA0AIAcp0AhQAeCAoIAbCAAAdt0AkIAbvKAkQA0AAA",
  "bp0AhQACAfIAb0AIAbx0AbQACAYACAIACAdQACAbrAAKAdYAkCAiLbCkIA0AcIA0AIAgeCAqYAs0ApAAbqKAMdz+ZGbrMG",
  "brPCAGbsIGbrSGbrNGbrXGbsK2dz+HGbrTGbrZGbsBGbrVGbsCGbrRGbrUMdz-LGbrOGbrQGbrWGbrYGbr0GbtOGbv0GbvBG",
  "btPCAGbrIGbrMCAGbsHKAGbrNCAGbsK2dz-HGbrTGbrZGbsBGbrVGbsCCAGbrUMd6aLGbrOCAGbrWCAGbr0bKAGbrM0AGbrN",
  "CAGbsKCAGbsECAGbsGGbrTGbrZCAGbrVGbsCCAGbrUKAGbrOCAGbrWCAGbr0CAGbv0CAGbtPCAGbrIGbrMCAGbsHKAGbrNG",
  "brXGbsKGbsDCAMd6bHGbrTGbrZGbsBGbrVGbsCCAGbrUMd6cLGbrOCAGbrWGbrYGbr0GbtOCAGbvBCAMd6cZGbrMGbrPM",
  "d6b3GbrSGbrNGbrXGbsKCAUd6cHGbrTGbrZGbsBGbrVGbsCGbrRGbrUMd6dLGbrOGbrQGbrWGbrYGbr0bCAGbrIGbrMGbrPC",
  "AGbsIGbrSGbrNGbrXGbsKCAUd6dHGbrTGbrZGbsBGbrVGbsCGbrRGbrUMd6eLGbrOGbrQGbrWGbrYGbr0m0AIAcdKAkYA0A",
  "yYAc0AdQAKAdQACAdQACAjAAcSAGboyabQGboyabRGboyabSGboyabTGboyabUGboyabVGboyabWGboyabXGboyabYG",
  "boyabZbAAGbojedhcabIGbojedieabIGbojedjgabIGbojedkiabIGbojedlkabIGbojedmmabIGbojednoabIG",
  "bojedoqabIGbojedpsabIGbojedquabIGbojedrwabIGbojedsyabIGbojedt6abIGbojedu8abIGbojedv+abIG",
  "bojedxaabIGbojedycabIGbojedzeabIGbojed6gabIGbojed7iabIGbojed8kabIGbojed9mabIGbojed+oabIG",
  "bojed-qabIGbojeeasabIGbojeebuabIGnshwud6gmaUGdDGdSGdkiadDGebuadXAAgMd8gPGd9madIGd9madNGdkiadTG",
  "d6gadTGefgydxaadQGdjgadXgIAGdjgadNGdkiadNGdzeadNiQAGdquadEhAAn0AgIAGm6pwmd1Gm9+gmfTGmfVdCAGysLG",
  "w6XGu+MGmgHGtuMGwi0Ec6bTGwjJGtvEGzrAG8jBGzmZGusNGx8MGumNGznQGuq3G-kCG9i5Eczl0GwhQGvbZG7yUGyuVG",
  "y6VGtqAGtqJEcypBGxpGGtrNGu-TGyyHEczgAGysTG+mBG+t0GvaIG7uAGzyJGzyIG9jTGutSGvnWEcyhO0AGnshxpm+ymaU",
  "GnshxixjsmaUGnshxi7uymaUGnshxmkbsmaUGnshxr+esmaUGnshxodygmaUGnshxtseomaUGnshxkak6maUGnshxo9momaU",
  "bSAGx8XGu-PdKAbIAbgKAhwAASAeAASAdAASAbwIAbKAcYA0AAAdSAcYA0AnYAb0AcIAbKAjYAb0AhIAKAcYA0AIAdKAcAA",
  "jSAcvYAb0AdIAKAdAASAcQASAoAACAAA0AdYAKAcYA0AcIAbSAbeQACAwYAcMd++AAAibCAknxYAh0AbchIAKAbndIAKA",
  "b6mAAdSAe7IAtiKAGtr3GtrYGtsBEb9xBGt7AGt9OGt91GuaCGud0GueZGuhHGugPGne4Eb8oTGukNGukUGulEGulXEb8xWG",
  "nfZGulHGumNEb8wLGumXGunEGtwMGunMGunVEzr3GupVGuqDGng5Gur1GusGGutSGutXGniVGuwHGuwJGuxEGux0MfjjEG",
  "uyXGu6JGu6RGu60Gu7TGu73Wu75Eb7qIG8dQGu+KGu+5Eb7gVGu-LGu-RGvaGGve4GvbYGvcIGvdIGvfCGvhWGviQGvkTG",
  "vlDOvmEGvmZGvnLGvnTGvoCGvyWGvqGGvyXGvsRGvtUGuqHGwhOGv+OGv-UGwaNGv8LGwbSGwbRGwfMEby7VGwhSGwhXGwiG",
  "Gwi0GwjCGwlCEbynYEbylXGwpMGwq1GwrHGwoYGwtGGnxOGnx2GwyIOwz4EbxvEGw+DGw+YGw-HGw-TEbxkZGw-5GxaGGx6T",
  "GxbCGn8BGxdAGxdOGxgAGxeNEbwuXGxkDEbwuXGxlOGxlLGxl2MfgvAGobPGxp3GxrIGxr3GxtJGodCEbvyGGod2GxvQGxvT",
  "GxvWGxwKEvh3Gxx4OeizREe9uSOxzCGogHEbro5Ebfv4Gx7CGx7LGohDGx80Gx+NGx+XGx-ZGyeBGoj0Goi2GyeUEbuoQG",
  "ygHGykIGykMGykOGykMGyl0GymOGynSGynEGynPGyo4GypSGypWGyqQGyq1Gys3GyvRGywUGy6QEbtnMGyz3Gyx2Gy7IGy8D",
  "Gy-EEbtgNGzbCGy+FGy9JGorOGzdJGzd4Gze3GzdXGotMGzkPGzlMEbsgAGzpDGzxYGzsJGoyZGzuRGoyIGoxEGumSGumVG",
  "zyAGzu2Ee+bJGq+ZGzyXGzy1GzzBGz64Gz6TEbri0Go6JGz-0Gz8FG6cSG6eFEbrdWG6eOG6a5G6iUGo83G6kCG6nDG6pKG",
  "6vIEbqsJG6w1GpaYG6zBEbqcJG66UGpcOG67SG685Mfdj1EbptKEbw-NEbpp5G7cOEbpb5G7f5G7gNG7dHG7iWG7j4G7lXG",
  "7kBG7lJG7lYG7mFEbo-IG7jUG7rPG7tOGpjTG7wLG7wHEbor2G7pZG77OEbonSEbomDG7+GG8bZG8a4G8a1GpmWG8cKG8d3G",
  "8dXG8fNEb8-WG8kFEbnv0G8m2EbnlUG8rIG8rVG8sQEbmy1G8uAG8uVEbmpREbmiTG870G88LGpvMG89FOpvYG9cHG9c2G",
  "9dRG9eFG9gKGpy1G9jEEblh5G9j4EblfFG9lQEbv80G9qQEbkm0EbkmEEbkhZGp-2GqaIG9xUEbkcOEbkcQEbkbKEbkaRM",
  "farHG9y5G96KGqbZG98LGqcGGqeWEbjjQG+cOG+eMG+gMGqhDEbizMG+kWEbiv0EbiuQG+mPG+pLGqjPG+sAG+sKG+sPE",
  "bh-AOewvHG+xOGqqCEbhnWG++GG++JGqrHEbhhFG-gSGqvAG-hIG-hDG-iAEbgpFG-lDGqyBG-oHG-qCG-sFGqzUEbf6KE",
  "bfzMGq6ZEbfu2G-70EbfrZG-8VG--0Ee+lVEbffBEbfcZEe+i3Ebe+WEe+iPEbrrBGq+VEe+gQEe+eAGraLEe+cHGwvVE",
  "bepAEbeoTEbrpWEbrpOEe98KEe98IEe6pPGrdLEe9x4Ee9yFEe9xUGuvTEe9xCEe9xBEe9wYEe9vQEbds1Ee9vTEe9t2E",
  "e9rXEe9pOEe9tZEe9pAEe9nXEe9kIEe9sNEe9oXEe9oWEe9oHEbdlOEbdb0EbdgRGrjLEe9fXEe9fWEe9eUEbbpBEe9cIE",
  "bcuBGrk3GrlBEbcp5Ebcg5GrlLEe87DEe86YEe86OEe86NEe8yOEe8zQEe8vLEe8wYEe8sCEe8uUEe8sSEe8rYGroXEe8o5E",
  "e8oAGrpZEe8lDEe8lBEba64Ee8hPEe8hJGrrVEe8gPGnf1Ebai3EbadGGrv4GrwHEe7zPEe7xDEe7sHEe7l3E-jLEe7jJE",
  "e7iUEe7f1Ee7dAE+vJEb8oVEe7aPEe7a5Ee6-MEb8h5Ee6yKEe6vHE9aOE8-UEe6kOEe6hSEe6gTE8vXEe6gLEez9PMezyRE",
  "ez7OEezpSEezoXE7pTEezdDGsmVEezbZE7d0GspGEeyzQGxnSEeywSE6fREz+3GstOGstWEeyq0EzpRGsvSEzlHObgaLE",
  "eyoXEzcLEeyjAGszTEeyg1Eeyc4EeycEEeyaJGs+OExwZEexxYEexoLEexiPGtgOGthNEexfIEwkCGthYEwiNEwaFEv8DE",
  "ew60GtkWEewy4Eewy0EewyUEewyLEewyFEewxBEva3lyKAbgsQAbCAcckIAfmzbKAb7ZAbp8d0A"]

/-- One more than the last character of all. -/
abbrev charBound : Nat := 0x110000

/-- The characters that are the digits of a number, the first one the lowest. -/
def characters : Nat → List Nat
  | 0 => []
  | n + 1 => (n + 1) % charBound :: characters ((n + 1) / charBound)
termination_by n => n
decreasing_by exact Nat.div_lt_self (by omega) (by decide)

/-- What the character `c` stands for that is number `place` of a run: itself, nothing, no character of
a domain, one further on or back, the next one for every other, or the characters of `arg`. -/
def treat (kind arg c place : Nat) : Option (List Nat) :=
  if kind = 0 then some [c]
  else if kind = 1 then some []
  else if kind = 2 then none
  else if kind = 3 then some [c + arg]
  else if kind = 4 then some [c - arg]
  else if kind = 5 then some [if place % 2 = 0 then c + 1 else c]
  else some (characters arg)

/-- What `c` stands for, which is `place` behind the beginning of the runs. -/
def find (c : Nat) : List Nat → Nat → Option (List Nat)
  | head :: arg :: rest, place =>
    if place < head / 8 + 1 then treat (head % 8) arg c place else find c rest (place - (head / 8 + 1))
  | _, _ => none

/-- The characters that `c` stands for; `none` for one that must not occur. -/
def mapped? (c : Char) : Option (List Char) :=
  if c.toNat < 0x80 then some [if 'A' ≤ c ∧ c ≤ 'Z' then Char.ofNat (c.toNat + 32) else c]
  else (find c.toNat runs (c.toNat - 0x80)).map (·.map Char.ofNat)

/-- A character that stands for itself. -/
def isPlain (c : Char) : Bool := mapped? c == some [c]

end Lifecycle.Url.Mapping
