namespace CatalogCrawl.Number

def word32 : Nat := 4294967296

def word64 : Nat := 18446744073709551616

def half64 : Nat := 9223372036854775808

end CatalogCrawl.Number
